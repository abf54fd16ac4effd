import ArduinoOS.Kernel.FatNameBuffer

/-!
# Names on disk

A directory has a short name in every entry, and for some entries a long one in
the slots before. What is read is the long name where the alias ends in `~1`
and the short one elsewhere.
-/

set_option autoImplicit false

namespace ArduinoOS.Kernel
open ArduinoOS.ByteProgram

/-- A name in eight and three characters, without its padding. -/
structure ShortName where
  base : List UInt8
  ext : List UInt8
  base_ne : base ≠ []
  base_le : base.length ≤ 8
  ext_le : ext.length ≤ 3
  base_last : base.getLast? ≠ some ' '.toUInt8
  ext_last : ext.getLast? ≠ some ' '.toUInt8
  base_zero : 0 ∉ base
  ext_zero : 0 ∉ ext
  first : ∀ c, base.head? = some c → c ≠ 0x05 ∧ c ≠ '.'.toUInt8

namespace ShortName

/-- The first byte 0xE5 would mark a deleted entry and is kept as 0x05. -/
def escaped (n : ShortName) : List UInt8 :=
  match n.base with
  | [] => []
  | c::rest => (if c = 0xE5 then 0x05 else c)::rest

/-- The bytes of the entry. -/
def bytes (n : ShortName) : List UInt8 :=
  n.escaped++(List.replicate (8-n.base.length) ' '.toUInt8++
    (n.ext++List.replicate (3-n.ext.length) ' '.toUInt8))

/-- The mark by which the code expects a long name. -/
def Marked (n : ShortName) : Prop := n.base.drop 6 = ['~'.toUInt8, '1'.toUInt8]

instance (n : ShortName) : Decidable n.Marked := inferInstanceAs (Decidable (_ = _))

def text (n : ShortName) : List UInt8 := shortText n.base n.ext

end ShortName

/-- A long name and the slots that a directory keeps it in, the nearest first. -/
structure LongName where
  units : List ℕ
  slots : List ℕ

/-- Characters outside ASCII are shown as a question mark. -/
def shownChar (unit : ℕ) : UInt8 := if unit < 128 then UInt8.ofNat unit else '?'.toUInt8

def LongName.text (long : LongName) : List UInt8 :=
  (long.units.map shownChar).take (FATPATHMAX-1)

/-- The checksum of a short name that the slots of the long one carry. -/
def shortChecksum (bytes : List UInt8) : UInt8 :=
  bytes.foldl (fun sum c => (sum <<< 7)+(sum >>> 1)+c) 0

/-- The characters of a number of slots: those of the name, a terminator where
there is room for it, and padding. -/
def paddedUnits (units : List ℕ) (count : ℕ) : List ℕ :=
  (units++0::List.replicate (13*count) 0xFFFF).take (13*count)

/-- The slots hold the long name of the entry with these bytes for a short one. -/
structure HoldsLong (fs : Fat) (bytes : List UInt8) (long : LongName) : Prop where
  ne : long.units ≠ []
  le : long.units.length ≤ 255
  nonzero : 0 ∉ long.units
  count : long.slots.length = (long.units.length+12)/13
  slot : ∀ (k offset : ℕ), long.slots[k]? = some offset → LongSlot (fatRead fs offset 32)
  order : ∀ (k offset : ℕ), long.slots[k]? = some offset →
    (fatRead fs offset 32).getD 0 0 =
      UInt8.ofNat (k+1) ||| (if k+1 = long.slots.length then 0x40 else 0)
  checksum : ∀ (k offset : ℕ), long.slots[k]? = some offset →
    (fatRead fs offset 32).getD 13 0 = shortChecksum bytes
  chars : ∀ (k offset : ℕ), long.slots[k]? = some offset →
    slotUnits (fatRead fs offset 32) =
      ((paddedUnits long.units long.slots.length).drop (13*k)).take 13

/-- The slots stand right before the entry on the volume. In a directory of
several clusters they may stand elsewhere. -/
def RightBefore (offset : ℕ) (slots : List ℕ) : Prop :=
  ∀ (k slot : ℕ), slots[k]? = some slot → slot = wrap32 ((offset : ℤ)-32*(k+1))

/-! ### Characters -/

theorem shownChar_iff (unit : ℕ) :
    storedChar unit = shownChar unit ↔ unit < 128 ∨ 256 ≤ unit := by
  have hmark : ('?'.toUInt8).toNat = 63 := rfl
  by_cases hwide : 256 ≤ unit
  · rw [storedChar, shownChar, if_pos hwide, if_neg (by omega)]
    exact iff_of_true rfl (.inr hwide)
  · by_cases hascii : unit < 128
    · rw [storedChar, shownChar, if_neg hwide, if_pos hascii]
      exact iff_of_true rfl (.inl hascii)
    · rw [storedChar, shownChar, if_neg hwide, if_neg hascii, ← UInt8.toNat_inj,
        UInt8.toNat_ofNat', hmark]
      omega

theorem storedText_shown {units : List ℕ} (hzero : 0 ∉ units) (rest : List ℕ)
    (hrest : rest = [] ∨ ∃ tail, rest = 0::tail) (room : ℕ) :
    storedText room (units++rest) = (units.map shownChar).take room ↔
      ∀ unit ∈ units.take room, unit < 128 ∨ 256 ≤ unit := by
  have hall : ∀ unit ∈ units, decide (unit ≠ 0) = true := by
    intro unit hunit
    simp only [ne_eq, decide_not, Bool.not_eq_true', decide_eq_false_iff_not]
    rintro rfl
    exact hzero hunit
  have hstops : rest.takeWhile (· ≠ 0) = [] := by
    rcases hrest with rfl | ⟨tail, rfl⟩
    · rfl
    · simp
  rw [storedText, List.takeWhile_append_of_pos hall, hstops, List.append_nil, ← List.map_take,
    ← List.map_take, List.map_inj_left]
  exact forall₂_congr (fun unit _ => shownChar_iff unit)

theorem paddedUnits_length (units : List ℕ) (count : ℕ) :
    (paddedUnits units count).length = 13*count := by
  rw [paddedUnits, List.length_take, List.length_append, List.length_cons, List.length_replicate]
  omega

theorem paddedUnits_cases {units : List ℕ} {count : ℕ} (h : units.length ≤ 13*count) :
    ∃ rest, paddedUnits units count = units++rest ∧ (rest = [] ∨ ∃ tail, rest = 0::tail) := by
  rw [paddedUnits, List.take_append, List.take_of_length_le h]
  refine ⟨_, rfl, ?_⟩
  cases 13*count-units.length with
  | zero => exact .inl rfl
  | succ n => exact .inr ⟨_, rfl⟩

/-! ### The slots of an entry -/

section Slots

variable {fs : Fat} {bytes : List UInt8} {long : LongName} {offset : ℕ}

theorem holdsLong_count (h : HoldsLong fs bytes long) :
    0 < long.slots.length ∧ long.slots.length ≤ 20 ∧
      13*(long.slots.length-1) < long.units.length ∧
      long.units.length ≤ 13*long.slots.length := by
  have hcount := h.count
  have hle := h.le
  have hpos := List.length_pos_iff.mpr h.ne
  omega

theorem lastSlot_iff (h : HoldsLong fs bytes long) {k slot : ℕ} (hk : long.slots[k]? = some slot) :
    LastSlot (fatRead fs slot 32) ↔ k+1 = long.slots.length := by
  obtain ⟨hpos, hle, -⟩ := holdsLong_count h
  obtain ⟨hlt, -⟩ := List.getElem?_eq_some_iff.mp hk
  have hplain : ∀ j < 21, (UInt8.ofNat j ||| 0) &&& 0x40 = 0 := by decide
  have hmarked : ∀ j < 21, (UInt8.ofNat j ||| 0x40) &&& 0x40 ≠ 0 := by decide
  rw [LastSlot, h.order k slot hk]
  by_cases hlast : k+1 = long.slots.length
  · rw [if_pos hlast]
    exact iff_of_true (hmarked (k+1) (by omega)) hlast
  · rw [if_neg hlast]
    exact iff_of_false (not_not.mpr (hplain (k+1) (by omega))) hlast

theorem slotBefore_next (hbefore : RightBefore offset long.slots) {k slot next : ℕ}
    (hk : long.slots[k]? = some slot) (hnext : long.slots[k+1]? = some next) :
    slotBefore slot = next := by
  rw [hbefore k slot hk, hbefore (k+1) next hnext]
  simp only [slotBefore, wrap32]
  push_cast
  omega

/-- From any slot on, the rest of the name is spelled. -/
theorem holdsLong_spells_from (h : HoldsLong fs bytes long)
    (hbefore : RightBefore offset long.slots) (j : ℕ) :
    ∀ {k start slot : ℕ}, k+j+1 = long.slots.length → long.slots[k]? = some slot →
      slotBefore start = slot → Spells fs start (FATPATHMAX-1-13*k)
        ((paddedUnits long.units long.slots.length).drop (13*k)) := by
  obtain ⟨hpos, hle, hlow, hhigh⟩ := holdsLong_count h
  have hpadded := paddedUnits_length long.units long.slots.length
  induction j with
  | zero =>
    intro k start slot hj hk hstart
    have hchars := h.chars k slot hk
    have hlast := (lastSlot_iff h hk).mpr hj
    rw [List.take_of_length_le (by rw [List.length_drop, hpadded]; omega)] at hchars
    have hspells := @Spells.last fs start (FATPATHMAX-1-13*k)
    rw [hstart, hchars] at hspells
    exact hspells (h.slot k slot hk) (.inl hlast)
  | succ j ih =>
    intro k start slot hj hk hstart
    have hchars := h.chars k slot hk
    have hmore : ¬ LastSlot (fatRead fs slot 32) := by
      rw [lastSlot_iff h hk]
      omega
    obtain ⟨next, hnext⟩ : ∃ next, long.slots[k+1]? = some next :=
      ⟨_, List.getElem?_eq_getElem (by omega)⟩
    have hrest := ih (by omega) hnext (slotBefore_next hbefore hk hnext)
    have hopen : 0 ∉ (((paddedUnits long.units long.slots.length).drop (13*k)).take 13).take
        (FATPATHMAX-1-13*k) := by
      intro hzero
      obtain ⟨rest, hsplit, -⟩ := paddedUnits_cases hhigh
      have hmem := List.mem_of_mem_take hzero
      rw [hsplit, List.drop_append_of_le_length (by omega),
        List.take_append_of_le_length (by rw [List.length_drop]; omega)] at hmem
      exact h.nonzero (List.mem_of_mem_drop (List.mem_of_mem_take hmem))
    have hroom : FATPATHMAX-1-13*(k+1) = FATPATHMAX-1-13*k-13 := by omega
    have hsplit : (paddedUnits long.units long.slots.length).drop (13*k) =
        ((paddedUnits long.units long.slots.length).drop (13*k)).take 13++
          (paddedUnits long.units long.slots.length).drop (13*(k+1)) := by
      rw [Nat.mul_add, Nat.mul_one, ← List.drop_drop, List.take_append_drop]
    have hspells := @Spells.more fs start (FATPATHMAX-1-13*k)
      ((paddedUnits long.units long.slots.length).drop (13*(k+1)))
    rw [hstart, hchars, ← hroom] at hspells
    rw [hsplit]
    exact hspells (h.slot k slot hk) hmore hopen hrest

theorem spells_unique {room : ℕ} {units units' : List ℕ} (h : Spells fs offset room units)
    (h' : Spells fs offset room units') : units = units' := by
  induction h generalizing units' with
  | last offset room hslot hlast =>
    cases h' with
    | last => rfl
    | more _ _ _ _ hmore hopen => exact absurd hlast (not_or.mpr ⟨hmore, hopen⟩)
  | more offset room units hslot hmore hopen hrest ih =>
    cases h' with
    | last _ _ _ hlast => exact absurd hlast (not_or.mpr ⟨hmore, hopen⟩)
    | more _ _ _ _ _ _ hrest' => rw [ih hrest']

end Slots

/-- The slots right before the entry on the volume, whosever they are, spell
this text. -/
def SpelledBefore (fs : Fat) (offset : ℕ) (text : List UInt8) : Prop :=
  ∃ units, Spells fs offset (FATPATHMAX-1) units ∧ text = storedText (FATPATHMAX-1) units

/-- Slots of its own right before the entry spell the long name, if none of the
characters that fit is from 0x80 to 0xFF. -/
theorem spelledBefore_iff {fs : Fat} {bytes : List UInt8} {long : LongName} {offset : ℕ}
    (h : HoldsLong fs bytes long) (hbefore : RightBefore offset long.slots) :
    SpelledBefore fs offset long.text ↔
      ∀ unit ∈ long.units.take (FATPATHMAX-1), unit < 128 ∨ 256 ≤ unit := by
  obtain ⟨hpos, -, -, hhigh⟩ := holdsLong_count h
  obtain ⟨slot, hslot⟩ : ∃ slot, long.slots[0]? = some slot :=
    ⟨_, List.getElem?_eq_getElem hpos⟩
  have hstart : slotBefore offset = slot := by
    rw [hbefore 0 slot hslot, slotBefore]
    congr 1
  have hspells := holdsLong_spells_from h hbefore (long.slots.length-1) (by omega) hslot hstart
  rw [Nat.mul_zero, Nat.sub_zero, List.drop_zero] at hspells
  obtain ⟨rest, hpadded, hrest⟩ := paddedUnits_cases hhigh
  rw [hpadded] at hspells
  rw [← storedText_shown h.nonzero rest hrest]
  constructor
  · rintro ⟨units, hunits, htext⟩
    rw [spells_unique hspells hunits, ← htext]
    rfl
  · intro htext
    exact ⟨_, hspells, htext.symm⟩

/-! ### The entry itself -/

namespace ShortName

theorem escaped_length (n : ShortName) : n.escaped.length = n.base.length := by
  rw [escaped]
  cases n.base with
  | nil => rfl
  | cons c rest => rfl

theorem bytes_length (n : ShortName) : n.bytes.length = 11 := by
  have hbase := n.base_le
  have hext := n.ext_le
  simp only [bytes, List.length_append, List.length_replicate, escaped_length]
  omega

/-- The first byte is of a name, and taken back to its character. -/
theorem unescape (n : ShortName) (rest : List UInt8) :
    (n.bytes++rest).getD 0 0 ≠ 0 ∧ (n.bytes++rest).getD 0 0 ≠ 0xE5 ∧
      (n.bytes++rest).getD 0 0 ≠ 0x2E ∧
      (if (n.bytes++rest).getD 0 0 = 0x05 then (n.bytes++rest).set 0 0xE5 else n.bytes++rest) =
        n.base++(List.replicate (8-n.base.length) ' '.toUInt8++
          (n.ext++List.replicate (3-n.ext.length) ' '.toUInt8))++rest := by
  have hzero := n.base_zero
  have hfirst := n.first
  have hne := n.base_ne
  rw [bytes, escaped]
  cases hbase : n.base with
  | nil => exact absurd hbase hne
  | cons c tail =>
    rw [hbase] at hzero hfirst
    obtain ⟨hfive, hdot⟩ := hfirst c rfl
    have hnull : c ≠ 0 := fun h => hzero (h ▸ List.mem_cons_self)
    by_cases hdeleted : c = 0xE5
    · simp [hdeleted]
    · simp [hdeleted, hfive, hnull]
      exact hdot

/-- The three places of the extension. -/
theorem extension (n : ShortName) : ∃ c₁ c₂ c₃, c₁ ≠ 0 ∧ c₂ ≠ 0 ∧ c₃ ≠ 0 ∧
    n.ext++List.replicate (3-n.ext.length) ' '.toUInt8 = [c₁, c₂, c₃] ∧
    [c₁, c₂, c₃].takeWhile (· ≠ ' '.toUInt8) = n.ext.takeWhile (· ≠ ' '.toUInt8) := by
  have hspace : ' '.toUInt8 ≠ 0 := by decide
  have hzero := n.ext_zero
  have hle := n.ext_le
  have hlist : ∀ ext : List UInt8, 0 ∉ ext → ext.length ≤ 3 →
      ∃ c₁ c₂ c₃, c₁ ≠ 0 ∧ c₂ ≠ 0 ∧ c₃ ≠ 0 ∧
        ext++List.replicate (3-ext.length) ' '.toUInt8 = [c₁, c₂, c₃] := by
    intro ext hext hlen
    match ext, hlen with
    | [], _ => exact ⟨_, _, _, hspace, hspace, hspace, rfl⟩
    | [a], _ => exact ⟨a, _, _, fun h => hext (by simp [h]), hspace, hspace, rfl⟩
    | [a, b], _ =>
      exact ⟨a, b, _, fun h => hext (by simp [h]), fun h => hext (by simp [h]), hspace, rfl⟩
    | [a, b, c], _ =>
      exact ⟨a, b, c, fun h => hext (by simp [h]), fun h => hext (by simp [h]),
        fun h => hext (by simp [h]), rfl⟩
  obtain ⟨c₁, c₂, c₃, h₁, h₂, h₃, heq⟩ := hlist n.ext hzero hle
  refine ⟨c₁, c₂, c₃, h₁, h₂, h₃, heq, ?_⟩
  rw [← heq]
  generalize 3-n.ext.length = k
  induction n.ext with
  | nil => cases k <;> simp [List.replicate_succ]
  | cons c tail ih =>
    rw [List.cons_append, List.takeWhile_cons, List.takeWhile_cons, ih]

theorem marked_iff (n : ShortName) (rest : List UInt8) :
    ((n.base++(List.replicate (8-n.base.length) ' '.toUInt8++rest)).getD 6 0 = '~'.toUInt8 ∧
      (n.base++(List.replicate (8-n.base.length) ' '.toUInt8++rest)).getD 7 0 = '1'.toUInt8) ↔
      n.Marked := by
  have hle := n.base_le
  rw [Marked]
  by_cases hfull : n.base.length = 8
  · rw [List.getD_append _ _ _ _ (by omega), List.getD_append _ _ _ _ (by omega),
      List.getD_eq_getElem _ _ (by omega), List.getD_eq_getElem _ _ (by omega),
      List.drop_eq_getElem_cons (by omega), List.drop_eq_getElem_cons (by omega),
      List.drop_of_length_le (by omega)]
    simp
  · have hspace : (n.base++(List.replicate (8-n.base.length) ' '.toUInt8++rest)).getD 7 0 =
        ' '.toUInt8 := by
      rw [List.getD_append_right _ _ _ _ (by omega), List.getD_append _ _ _ _
        (by rw [List.length_replicate]; omega), List.getD_eq_getElem _ _
        (by rw [List.length_replicate]; omega), List.getElem_replicate]
    constructor
    · rintro ⟨-, hone⟩
      rw [hspace] at hone
      exact absurd hone (by decide)
    · intro hdrop
      have hlen := congrArg List.length hdrop
      rw [List.length_drop, List.length_cons, List.length_cons, List.length_nil] at hlen
      omega

end ShortName

/-- The entry has this short name. -/
def HoldsShort (fs : Fat) (offset : ℕ) (n : ShortName) : Prop := fatRead fs offset 11 = n.bytes

/-- With the mark, the slots before are read; else the bytes make the name. -/
theorem entry_run {fs : Fat} {offset : ℕ} {n : ShortName} (h : HoldsShort fs offset n)
    {buffer : List UInt8} (hbuffer : buffer.length = FATPATHMAX) :
    (n.Marked → ∃ name, name.length = FATPATHMAX ∧ ∀ fuel,
      fatReadDirEntryNameIn fs fuel offset buffer =
        (fatReadLongName fs fuel offset 0 name).map some) ∧
    (¬ n.Marked → ∀ fuel, fatReadDirEntryNameIn fs fuel offset buffer =
      some (some (.success (shortText n.base (n.ext.takeWhile (· ≠ ' '.toUInt8)))))) := by
  have hmax : FATPATHMAX = 64 := rfl
  have hbase := n.base_le
  have hext := n.ext_le
  obtain ⟨hzero, hdeleted, hdot, hname⟩ := n.unescape (buffer.drop 11)
  have hlen : (n.bytes++buffer.drop 11).length = FATPATHMAX := by
    rw [List.length_append, n.bytes_length, List.length_drop]
    omega
  have hfirst : (if (n.bytes++buffer.drop 11).getD 0 0 = 0x05 then
      bufferSet (n.bytes++buffer.drop 11) 0 0xE5 else some (n.bytes++buffer.drop 11)) =
      some (n.base++(List.replicate (8-n.base.length) ' '.toUInt8++
        (n.ext++List.replicate (3-n.ext.length) ' '.toUInt8))++buffer.drop 11) := by
    rw [buffer_set (by omega), ← hname]
    split <;> rfl
  have hlen' : (n.base++(List.replicate (8-n.base.length) ' '.toUInt8++
      (n.ext++List.replicate (3-n.ext.length) ' '.toUInt8++buffer.drop 11))).length =
        FATPATHMAX := by
    simp only [List.length_append, List.length_replicate, List.length_drop]
    omega
  have hrun : ∀ fuel, fatReadDirEntryNameIn fs fuel offset buffer =
      if n.Marked then
        fatReadLongNameIn fs fuel offset 0 (n.base++(List.replicate (8-n.base.length) ' '.toUInt8++
          (n.ext++List.replicate (3-n.ext.length) ' '.toUInt8++buffer.drop 11)))
      else some ((shortNameIn (n.base++(List.replicate (8-n.base.length) ' '.toUInt8++
        (n.ext++List.replicate (3-n.ext.length) ' '.toUInt8++buffer.drop 11)))).map .success) := by
    intro fuel
    have hread : fatRead fs offset 11 = n.bytes := h
    simp only [fatReadDirEntryNameIn]
    rw [hread, n.bytes_length, if_neg (not_not.mpr rfl), buffer_get (by omega)]
    dsimp only
    rw [if_neg hzero, if_neg (not_or.mpr ⟨hdeleted, hdot⟩), hfirst]
    dsimp only
    rw [List.append_assoc, List.append_assoc, buffer_get (by omega), buffer_get (by omega)]
    exact if_congr (n.marked_iff _) rfl rfl
  constructor
  · intro hmarked
    refine ⟨_, hlen', fun fuel => ?_⟩
    rw [hrun, if_pos hmarked]
    exact fatReadLongNameIn_eq fuel hlen' (by omega)
  · intro hplain fuel
    rw [hrun, if_neg hplain, shortNameIn_eq hlen', Option.map_some]
    obtain ⟨c₁, c₂, c₃, h₁, h₂, h₃, hthree, hcut⟩ := n.extension
    rw [← hcut, hthree]
    have hrest : 2 ≤ (buffer.drop 11).length := by
      rw [List.length_drop]
      omega
    obtain ⟨x, y, rest, hdrop⟩ : ∃ x y rest, buffer.drop 11 = x::y::rest := by
      rcases hdrop : buffer.drop 11 with _ | ⟨x, _ | ⟨y, rest⟩⟩
      · simp [hdrop] at hrest
      · simp [hdrop] at hrest
      · exact ⟨x, y, rest, rfl⟩
    rw [hdrop]
    exact congrArg _ (congrArg _ (congrArg _
      (shortName_spec n.base_ne n.base_le n.base_last n.base_zero h₁ h₂ h₃ x y rest)))

/-! ### What is read -/

/-- The name that the directory has for an entry. -/
def nameOnDisk (n : ShortName) : Option LongName → List UInt8
  | some long => long.text
  | none => n.text

/-- The name is read, into whatever buffer the caller has, and no access is
outside of the buffer. -/
def NameDecodes (fs : Fat) (offset : ℕ) (name : List UInt8) : Prop :=
  ∀ buffer : List UInt8, buffer.length = FATPATHMAX →
    (∃ fuel, fatReadDirEntryNameIn fs fuel offset buffer = some (some (.success name))) ∧
      ∀ fuel, fatReadDirEntryNameIn fs fuel offset buffer ≠ some none

/-- With the mark: its own long name stands right before the entry and has no
character from 0x80 to 0xFF in the part that fits, or other slots there happen to
spell the name. Without: the short name is the name, with no space in its extension. -/
def NameKept (fs : Fat) (offset : ℕ) (n : ShortName) (long : Option LongName) : Prop :=
  if n.Marked then
    match long with
    | some long =>
      (RightBefore offset long.slots →
        ∀ unit ∈ long.units.take (FATPATHMAX-1), unit < 128 ∨ 256 ≤ unit) ∧
      (¬ RightBefore offset long.slots → SpelledBefore fs offset long.text)
    | none => SpelledBefore fs offset n.text
  else
    match long with
    | some long => long.text = shortText n.base (n.ext.takeWhile (· ≠ ' '.toUInt8))
    | none => ' '.toUInt8 ∉ n.ext

theorem shortText_inj {base ext ext' : List UInt8} :
    shortText base ext = shortText base ext' ↔ ext = ext' := by
  rw [shortText, shortText, List.append_cancel_left_eq]
  by_cases hext : ext = []
  · by_cases hext' : ext' = []
    · simp [hext, hext']
    · simp [hext, hext', eq_comm]
  · by_cases hext' : ext' = []
    · simp [hext, hext']
    · simp [hext, hext']

theorem takeWhile_space {ext : List UInt8} :
    ext.takeWhile (· ≠ ' '.toUInt8) = ext ↔ ' '.toUInt8 ∉ ext := by
  rw [List.takeWhile_eq_self_iff]
  constructor
  · intro h hspace
    exact absurd (h _ hspace) (by simp)
  · intro h c hc
    simp only [ne_eq, decide_not, Bool.not_eq_true', decide_eq_false_iff_not]
    rintro rfl
    exact h hc

section Decoding

variable {fs : Fat} {offset : ℕ} {n : ShortName}

theorem marked_decodes (h : HoldsShort fs offset n) (hmarked : n.Marked) (name : List UInt8) :
    NameDecodes fs offset name ↔ SpelledBefore fs offset name := by
  have hmax : FATPATHMAX = 64 := rfl
  have hread : ∀ buffer : List UInt8, buffer.length = FATPATHMAX →
      ((∃ fuel, fatReadDirEntryNameIn fs fuel offset buffer = some (some (.success name))) ↔
        SpelledBefore fs offset name) ∧
      ∀ fuel, fatReadDirEntryNameIn fs fuel offset buffer ≠ some none := by
    intro buffer hbuffer
    obtain ⟨start, hlen, hrun⟩ := (entry_run h hbuffer).1 hmarked
    have hlong : (∃ fuel, fatReadLongName fs fuel offset 0 start = some (.success name)) ↔
        SpelledBefore fs offset name :=
      fatReadLongName_iff hlen (by decide) List.take_zero List.not_mem_nil
    constructor
    · rw [← hlong]
      apply exists_congr
      intro fuel
      rw [hrun]
      cases fatReadLongName fs fuel offset 0 start <;> simp
    · intro fuel
      rw [hrun]
      cases fatReadLongName fs fuel offset 0 start <;> simp
  constructor
  · intro hdecodes
    have hbuffer : (List.replicate FATPATHMAX (0 : UInt8)).length = FATPATHMAX :=
      List.length_replicate
    exact (hread _ hbuffer).1.mp (hdecodes _ hbuffer).1
  · intro hspelled buffer hbuffer
    exact ⟨(hread buffer hbuffer).1.mpr hspelled, (hread buffer hbuffer).2⟩

theorem plain_decodes (h : HoldsShort fs offset n) (hplain : ¬ n.Marked) (name : List UInt8) :
    NameDecodes fs offset name ↔ name = shortText n.base (n.ext.takeWhile (· ≠ ' '.toUInt8)) := by
  have hread : ∀ buffer : List UInt8, buffer.length = FATPATHMAX → ∀ fuel,
      fatReadDirEntryNameIn fs fuel offset buffer =
        some (some (.success (shortText n.base (n.ext.takeWhile (· ≠ ' '.toUInt8))))) :=
    fun buffer hbuffer => (entry_run h hbuffer).2 hplain
  constructor
  · intro hdecodes
    have hbuffer : (List.replicate FATPATHMAX (0 : UInt8)).length = FATPATHMAX :=
      List.length_replicate
    obtain ⟨fuel, hrun⟩ := (hdecodes _ hbuffer).1
    rw [hread _ hbuffer fuel] at hrun
    injection hrun with hrun
    injection hrun with hrun
    injection hrun with hrun
    exact hrun.symm
  · rintro rfl buffer hbuffer
    refine ⟨⟨0, hread buffer hbuffer 0⟩, fun fuel => ?_⟩
    rw [hread buffer hbuffer fuel]
    simp

/-- The name on disk is read exactly where it is kept by the mark. -/
theorem name_decodes_iff (h : HoldsShort fs offset n) (long : Option LongName)
    (hlong : ∀ l, long = some l → HoldsLong fs n.bytes l) :
    NameDecodes fs offset (nameOnDisk n long) ↔ NameKept fs offset n long := by
  by_cases hmarked : n.Marked
  · rw [marked_decodes h hmarked]
    unfold NameKept
    rw [if_pos hmarked]
    cases long with
    | none => rfl
    | some long =>
      have hholds := hlong long rfl
      constructor
      · intro hspelled
        exact ⟨fun hbefore => (spelledBefore_iff hholds hbefore).mp hspelled, fun _ => hspelled⟩
      · rintro ⟨hnear, hfar⟩
        by_cases hbefore : RightBefore offset long.slots
        · exact (spelledBefore_iff hholds hbefore).mpr (hnear hbefore)
        · exact hfar hbefore
  · rw [plain_decodes h hmarked]
    unfold NameKept
    rw [if_neg hmarked]
    cases long with
    | none =>
      rw [nameOnDisk, ShortName.text, shortText_inj, eq_comm]
      exact takeWhile_space
    | some long => rfl

end Decoding

/-! ### Two entries -/

/-- A volume with these bytes, as far as names are concerned. -/
def volumeOf (bytes : List UInt8) : Fat where
  readFunctor addr len := (bytes.drop addr).take len
  bytesPerSector := 512
  fatSector := 1
  rootDirSector := 33
  firstDataSector := 65
  type := .fat16
  sectorsPerCluster := 1

/-- The slot of `longname.txt` and the short name `LONGNA~1.TXT`. -/
def markedBytes : List UInt8 :=
  [0x41, 108, 0, 111, 0, 110, 0, 103, 0, 110, 0, 0x0F, 0, 244, 97, 0, 109, 0, 101, 0, 46, 0, 116, 0,
    120, 0, 0, 0, 116, 0, 0, 0,
    76, 79, 78, 71, 78, 65, 126, 49, 84, 88, 84]

def markedName : ShortName where
  base := [76, 79, 78, 71, 78, 65, 126, 49]
  ext := [84, 88, 84]
  base_ne := by decide
  base_le := by decide
  ext_le := by decide
  base_last := by decide
  ext_last := by decide
  base_zero := by decide
  ext_zero := by decide
  first := by simp; decide

def markedLong : LongName where
  units := [108, 111, 110, 103, 110, 97, 109, 101, 46, 116, 120, 116]
  slots := [0]

/-- The slot of `a` and the short name `A`, which needs no number. -/
def plainBytes : List UInt8 :=
  [0x41, 97, 0, 0, 0, 255, 255, 255, 255, 255, 255, 0x0F, 0, 128, 255, 255, 255, 255, 255, 255, 255,
    255, 255, 255, 255, 255, 0, 0, 255, 255, 255, 255,
    65, 32, 32, 32, 32, 32, 32, 32, 32, 32, 32]

def plainName : ShortName where
  base := [65]
  ext := []
  base_ne := by decide
  base_le := by decide
  ext_le := by decide
  base_last := by decide
  ext_last := by decide
  base_zero := by decide
  ext_zero := by decide
  first := by simp; decide

def plainLong : LongName where
  units := [97]
  slots := [0]

theorem one_slot {P : ℕ → ℕ → Prop} (h : P 0 0) :
    ∀ (k offset : ℕ), ([0] : List ℕ)[k]? = some offset → P k offset := by
  intro k offset hk
  cases k with
  | zero =>
    cases hk
    exact h
  | succ k => cases hk

theorem markedLong_holds : HoldsLong (volumeOf markedBytes) markedName.bytes markedLong where
  ne := by decide
  le := by decide
  nonzero := by decide
  count := by decide
  slot := one_slot ⟨by decide, by decide, by decide, by decide, by decide⟩
  order := one_slot (by decide)
  checksum := one_slot (by decide)
  chars := one_slot (by decide)

theorem plainLong_holds : HoldsLong (volumeOf plainBytes) plainName.bytes plainLong where
  ne := by decide
  le := by decide
  nonzero := by decide
  count := by decide
  slot := one_slot ⟨by decide, by decide, by decide, by decide, by decide⟩
  order := one_slot (by decide)
  checksum := one_slot (by decide)
  chars := one_slot (by decide)

theorem name_decodes_marked : NameDecodes (volumeOf markedBytes) 32
    (nameOnDisk markedName (some markedLong)) := by
  have hshort : HoldsShort (volumeOf markedBytes) 32 markedName := by
    unfold HoldsShort
    decide
  apply (name_decodes_iff hshort
    (some markedLong) (fun l hl => Option.some.inj hl ▸ markedLong_holds)).mpr
  have hbefore : RightBefore 32 markedLong.slots := one_slot (by decide)
  unfold NameKept
  rw [if_pos (by decide)]
  exact ⟨fun _ => by decide, fun hfar => absurd hbefore hfar⟩

/-- The file `a` is read as `A`: its short name is not numbered. -/
theorem unmarked_long_name_lost : HoldsShort (volumeOf plainBytes) 32 plainName ∧
    HoldsLong (volumeOf plainBytes) plainName.bytes plainLong ∧
    RightBefore 32 plainLong.slots ∧
    ¬ NameDecodes (volumeOf plainBytes) 32 (nameOnDisk plainName (some plainLong)) := by
  have hshort : HoldsShort (volumeOf plainBytes) 32 plainName := by
    unfold HoldsShort
    decide
  refine ⟨hshort, plainLong_holds, one_slot (by decide), ?_⟩
  rw [plain_decodes hshort (by decide)]
  decide

end ArduinoOS.Kernel
