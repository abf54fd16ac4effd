import ArduinoOS.Kernel.KStr
import ArduinoOS.Kernel.Tables
import ArduinoOS.Lib.Compare
import Mathlib.Algebra.Ring.Nat

/-!
# Offset strings are suffixes

A chain of offset strings behaves as the plain string behind it without its
first characters, as long as every offset fits the eight bits it is stored in.
The maximum of the header does not: it is stored as no offset at all.
-/

set_option autoImplicit false

namespace ArduinoOS.Kernel.KStrings

/-! ### What an allocation stores -/

section Packing

variable {build : Build} {src offset : ℕ}

/-- The string lies on the one at `src`, some characters further. -/
structure Points (build : Build) (str : KStr) (src offset : ℕ) : Prop where
  type : str.type = .offset
  src : kstrOffsetGetSrc build str = src
  offset : kstrOffsetGetOffset build str = offset

theorem clampOffset_le (offset : ℕ) : clampOffset offset ≤ KStrOffsetMax := by
  unfold clampOffset
  split <;> omega

theorem clampOffset_of_le (h : offset ≤ KStrOffsetMax) : clampOffset offset = offset :=
  if_neg (Nat.not_lt.mpr h)

/-- The pointer of the Arduino holds the address and eight bits of the offset. -/
theorem packed_ptr (offset : ℕ) (hsrc : src < 65536) :
    ((src &&& 0xFFFF) ||| (offset <<< 16)) % 2^KStrArduinoPtrBits = offset % 256*65536+src := by
  have hlow : src &&& 0xFFFF = src := by
    rw [show (0xFFFF : ℕ) = 2^16-1 from rfl, Nat.and_two_pow_sub_one_eq_mod]
    exact Nat.mod_eq_of_lt hsrc
  rw [hlow, Nat.or_comm, ← Nat.shiftLeft_add_eq_or_of_lt hsrc, Nat.shiftLeft_eq]
  change (offset*65536+src) % 16777216 = _
  omega

theorem kstrAllocOffset_points (offset : ℕ) (hsrc : src < 2^build.pointerBits) :
    Points build (kstrAllocOffset build src offset) src (clampOffset offset % 256) := by
  cases build with
  | pc =>
    refine ⟨rfl, rfl, ?_⟩
    change (UInt8.ofNat (clampOffset offset)).toNat = _
    rw [UInt8.toNat_ofNat']
  | arduino =>
    have hptr := packed_ptr (clampOffset offset) hsrc
    have hsmall : src < 65536 := hsrc
    refine ⟨rfl, ?_, ?_⟩
    · change _ &&& 0xFFFF = _
      simp only [kstrAllocOffset, hptr]
      rw [show (0xFFFF : ℕ) = 2^16-1 from rfl, Nat.and_two_pow_sub_one_eq_mod]
      omega
    · change (_ >>> 16) &&& 0xFF = _
      simp only [kstrAllocOffset, hptr, Nat.shiftRight_eq_div_pow]
      rw [show (0xFF : ℕ) = 2^8-1 from rfl, Nat.and_two_pow_sub_one_eq_mod]
      omega

/-- The assertions hold for the offsets that fit eight bits. -/
theorem kstrAllocOffset_asserted (hsrc : src < 2^build.pointerBits) (h : offset < KStrOffsetMax) :
    kstrAllocOffsetAsserts build src offset := by
  have hpoints := kstrAllocOffset_points offset hsrc
  cases build with
  | pc => trivial
  | arduino =>
    have hmax : offset < 256 := h
    refine ⟨?_, hpoints.src⟩
    rw [hpoints.offset, clampOffset_of_le (Nat.le_of_lt h)]
    exact Nat.mod_eq_of_lt hmax

end Packing

/-! ### Strings in memory -/

/-- The characters of a plain string lie where its type says. -/
def Machine.region (m : Machine) (type : KStrType) : Option (ℕ → UInt8) :=
  match type with
  | .progmem => if m.build = .arduino then some m.progmem else none
  | .static | .heap => some m.ram
  | .null | .offset => none

/-- The bound of addresses of such a string. -/
def Build.space (build : Build) (type : KStrType) : ℕ :=
  if type = .progmem then 2^KStrArduinoPtrBits else 2^build.pointerBits

/-- The string stands at the address. -/
structure StringIn (m : Machine) (type : KStrType) (addr : ℕ) (s : CStr) : Prop where
  chars : ∃ region, m.region type = some region ∧ ∀ i ≤ s.length, region (addr+i) = s.getChar i
  room : addr+s.length < m.build.space type
  size : s.length < 2^m.build.pointerBits

/-- A plain string with these characters. -/
def Shows (m : Machine) (str : KStr) (s : CStr) : Prop := StringIn m str.type str.ptr s

section Memory

variable {m : Machine} {type : KStrType} {addr : ℕ} {s : CStr}

theorem getChar_drop (s : CStr) (t i : ℕ) (ht : t ≤ s.length) :
    CStr.getChar (s.drop t) i = s.getChar (t+i) := by
  have hbytes : CStr.bytes (s.drop t) = s.bytes.drop t := by
    rw [CStr.bytes, CStr.bytes, List.map_drop, List.drop_append_of_le_length (by simpa using ht)]
  simp [CStr.getChar, hbytes, List.getD_eq_getElem?_getD]

theorem stringIn_drop (h : StringIn m type addr s) {t : ℕ} (ht : t ≤ s.length) :
    StringIn m type (addr+t) (s.drop t) := by
  obtain ⟨⟨region, hregion, hchars⟩, hroom, hsize⟩ := h
  refine ⟨⟨region, hregion, ?_⟩, ?_, ?_⟩
  · intro i hi
    rw [List.length_drop] at hi
    rw [Nat.add_assoc, hchars (t+i) (by omega), getChar_drop s t i ht]
  · rw [List.length_drop]
    omega
  · rw [List.length_drop]
    omega

theorem stringAt_chars {region : ℕ → UInt8} (fuel : ℕ) (hfuel : s.length < fuel)
    (h : ∀ i ≤ s.length, region (addr+i) = s.getChar i) : stringAt region addr fuel = some s := by
  induction s generalizing addr fuel with
  | nil =>
    cases fuel with
    | zero => simp at hfuel
    | succ fuel =>
      have hend : region addr = 0 := h 0 (Nat.le_refl 0)
      rw [stringAt, dif_pos hend]
  | cons c s ih =>
    cases fuel with
    | zero => simp at hfuel
    | succ fuel =>
      have hfirst : region addr = c.val := h 0 (Nat.zero_le _)
      have hrest : stringAt region (addr+1) fuel = some s := by
        apply ih fuel (by simpa using hfuel)
        intro i hi
        rw [Nat.add_assoc, Nat.add_comm 1 i]
        exact h (i+1) (by simpa using hi)
      rw [stringAt, dif_neg (by rw [hfirst]; exact c.ne), hrest]
      simp only [Option.map_some, hfirst]

end Memory

/-! ### Strings on strings -/

/-- The string lies on the base, this many characters and levels further. -/
inductive Over (m : Machine) (base : KStr) : ℕ → ℕ → KStr → Prop
  | base : Over m base 0 0 base
  | offset {t levels : ℕ} {str : KStr} {src offset : ℕ} {top : KStr} : Over m base t levels str →
      m.kstr src = str → Points m.build top src offset → Over m base (t+offset) (levels+1) top

section Chains

variable {m : Machine} {base top : KStr} {t levels : ℕ}

theorem sizeT_of_lt {build : Build} {n : ℕ} (h : n < 2^build.pointerBits) : build.sizeT n = n :=
  Nat.mod_eq_of_lt h

theorem over_resolve (h : Over m base t levels top) (hbase : base.type ≠ .offset) (depth : ℕ)
    (hdepth : levels < depth) (acc : ℕ) (hacc : acc+t < 2^m.build.pointerBits) :
    kstrResolve m depth top acc = some (base, acc+t) := by
  induction h generalizing depth acc with
  | base =>
    cases depth with
    | zero => omega
    | succ depth => exact if_neg hbase
  | offset hover hmem hpoints ih =>
    cases depth with
    | zero => omega
    | succ depth =>
      rw [kstrResolve, if_pos hpoints.type, hpoints.src, hpoints.offset, hmem,
        sizeT_of_lt (by omega), ih depth (by omega) _ (by omega)]
      simp only [Option.some.injEq, Prod.mk.injEq, true_and]
      omega

theorem over_getChar (h : Over m base t levels top) (hbase : base.type ≠ .offset) (depth : ℕ)
    (hdepth : levels < depth) (n : ℕ) (hn : n+t < 2^m.build.pointerBits) :
    kstrGetChar m depth top n = kstrGetChar m 1 base (n+t) := by
  induction h generalizing depth n with
  | base =>
    cases depth with
    | zero => omega
    | succ depth =>
      rw [kstrGetChar, kstrGetChar]
      cases htype : base.type with
      | offset => exact absurd htype hbase
      | _ => rfl
  | offset hover hmem hpoints ih =>
    cases depth with
    | zero => omega
    | succ depth =>
      rw [kstrGetChar, hpoints.type]
      simp only
      rw [hpoints.src, hpoints.offset, hmem, sizeT_of_lt (by omega),
        ih depth (by omega) _ (by omega)]
      congr 1
      omega

theorem over_strlen {fuel len : ℕ} (h : Over m base t levels top) (hbase : base.type ≠ .offset)
    (hlen : kstrStrlen m fuel 1 base = some (u16 len)) (ht : t ≤ len) (depth : ℕ)
    (hdepth : levels < depth) : kstrStrlen m fuel depth top = some (u16 (len-t)) := by
  induction h generalizing depth with
  | base =>
    cases depth with
    | zero => omega
    | succ depth =>
      rw [Nat.sub_zero, ← hlen, kstrStrlen, kstrStrlen]
      cases htype : base.type with
      | offset => exact absurd htype hbase
      | _ => rfl
  | offset hover hmem hpoints ih =>
    cases depth with
    | zero => omega
    | succ depth =>
      rw [kstrStrlen, hpoints.type]
      simp only
      rw [hpoints.src, hpoints.offset, hmem, ih (by omega) depth (by omega), Option.map_some]
      simp only [wrap16, u16, Option.some.injEq]
      omega

end Chains

/-! ### What the functions see of a string -/

/-- Resolved, read and measured, the string has these characters. -/
structure Acts (m : Machine) (levels whole : ℕ) (type : KStrType) (s : CStr) (str : KStr) :
    Prop where
  notNull : kstrIsNull str = false
  length_le : s.length ≤ whole
  resolve : ∀ depth, levels < depth → ∃ base offset,
    kstrResolve m depth str 0 = some (base, offset) ∧ base.type = type ∧
      StringIn m type (base.ptr+offset) s
  getChar : ∀ depth, levels < depth → ∀ n ≤ s.length,
    kstrGetChar m depth str n = some (s.getChar n)
  strlen : ∀ depth, levels < depth → ∀ fuel, whole < fuel →
    kstrStrlen m fuel depth str = some (u16 s.length)

section Plain

variable {m : Machine} {base top : KStr} {s : CStr} {t levels : ℕ}

theorem region_cases {type : KStrType} {region : ℕ → UInt8} (h : m.region type = some region) :
    (type = .progmem ∧ m.build = .arduino ∧ region = m.progmem) ∨
      ((type = .static ∨ type = .heap) ∧ region = m.ram) := by
  cases type with
  | null => cases h
  | offset => cases h
  | progmem =>
    simp only [Machine.region] at h
    split at h
    case isTrue hbuild => exact Or.inl ⟨rfl, hbuild, (Option.some.inj h).symm⟩
    case isFalse => cases h
  | static => exact Or.inr ⟨Or.inl rfl, (Option.some.inj h).symm⟩
  | heap => exact Or.inr ⟨Or.inr rfl, (Option.some.inj h).symm⟩

theorem shows_getChar (h : Shows m base s) (n : ℕ) (hn : n ≤ s.length) :
    kstrGetChar m 1 base n = some (s.getChar n) := by
  obtain ⟨⟨region, hregion, hchars⟩, hroom, _⟩ := h
  rw [kstrGetChar, ← hchars n hn]
  rcases region_cases hregion with ⟨htype, hbuild, rfl⟩ | ⟨htype, rfl⟩
  · rw [htype]
    simp only [hbuild]
  · have hspace : m.build.space base.type = 2^m.build.pointerBits := by
      rcases htype with h | h <;> rw [h] <;> rfl
    rw [hspace] at hroom
    rw [sizeT_of_lt (Nat.lt_of_le_of_lt (Nat.le_add_right _ _) hroom)]
    rcases htype with h | h <;> rw [h]

theorem shows_strlen (h : Shows m base s) (fuel : ℕ) (hfuel : s.length < fuel) :
    kstrStrlen m fuel 1 base = some (u16 s.length) := by
  obtain ⟨⟨region, hregion, hchars⟩, hroom, _⟩ := h
  have hstring := stringAt_chars fuel hfuel hchars
  rw [kstrStrlen]
  rcases region_cases hregion with ⟨htype, hbuild, rfl⟩ | ⟨htype, rfl⟩
  · rw [htype]
    simp only [hbuild, hstring, Option.map_some]
  · have hspace : m.build.space base.type = 2^m.build.pointerBits := by
      rcases htype with h | h <;> rw [h] <;> rfl
    rw [hspace] at hroom
    rw [sizeT_of_lt (Nat.lt_of_le_of_lt (Nat.le_add_right _ _) hroom), hstring]
    rcases htype with h | h <;> rw [h] <;> rfl

theorem shows_type (h : Shows m base s) : base.type ≠ .offset ∧ base.type ≠ .null := by
  obtain ⟨region, hregion, _⟩ := h.chars
  rcases region_cases hregion with ⟨htype, _⟩ | ⟨htype | htype, _⟩ <;> simp [htype]

/-- A chain over a plain string acts as that string without its first characters. -/
theorem over_acts (hbase : Shows m base s) (h : Over m base t levels top) (ht : t ≤ s.length) :
    Acts m levels s.length base.type (s.drop t) top := by
  have hsize := hbase.size
  have htypes := shows_type hbase
  refine ⟨?_, by simp, ?_, ?_, ?_⟩
  · cases h with
    | base => exact decide_eq_false htypes.2
    | offset _ _ hpoints => simp [kstrIsNull, hpoints.type]
  · intro depth hdepth
    refine ⟨base, t, ?_, rfl, stringIn_drop hbase ht⟩
    rw [over_resolve h htypes.1 depth hdepth 0 (by omega), Nat.zero_add]
  · intro depth hdepth n hn
    rw [List.length_drop] at hn
    rw [over_getChar h htypes.1 depth hdepth n (by omega), shows_getChar hbase _ (by omega),
      getChar_drop s t n ht, Nat.add_comm]
  · intro depth hdepth fuel hfuel
    rw [List.length_drop]
    exact over_strlen h htypes.1 (shows_strlen hbase fuel hfuel) ht depth hdepth

theorem shows_acts (h : Shows m base s) (levels whole : ℕ) (hwhole : s.length ≤ whole) :
    Acts m levels whole base.type s base := by
  have hover := over_acts h .base (Nat.zero_le _)
  rw [List.drop_zero] at hover
  exact ⟨hover.notNull, hwhole, fun depth hdepth => hover.resolve depth (by omega),
    fun depth hdepth => hover.getChar depth (by omega),
    fun depth hdepth fuel hfuel => hover.strlen depth (by omega) fuel (by omega)⟩

end Plain

/-- An offset string over a plain one acts as the string that offsets lead to elsewhere. -/
theorem allocOffset_acts {m : Machine} {base : KStr} {s : CStr} (hbase : Shows m base s)
    {src offset : ℕ} (hmem : m.kstr src = base) (hsrc : src < 2^m.build.pointerBits)
    (hoffset : offset ≤ s.length) :
    Acts m 1 s.length base.type (kstrO s offset) (kstrAllocOffset m.build src offset) := by
  have hover := Over.offset .base hmem (kstrAllocOffset_points offset hsrc)
  have hle : clampOffset offset % 256 ≤ s.length := by
    refine Nat.le_trans (Nat.mod_le _ _) (Nat.le_trans ?_ hoffset)
    unfold clampOffset
    split <;> omega
  have hacts := over_acts hbase hover (by omega)
  simp only [Nat.zero_add] at hacts
  exact hacts

/-! ### What the functions answer -/

section Answers

variable {m : Machine} {levels whole fuel depth : ℕ} {type : KStrType} {s : CStr} {str : KStr}

/-- The characters are where the resolved base string and the offset say. -/
theorem acts_base (h : Acts m levels whole type s str) (hdepth : levels < depth)
    (hfuel : whole < fuel) : ∃ base offset,
    kstrResolve m depth str 0 = some (base, offset) ∧ base.type = type ∧
    ((type = .progmem ∧ m.build = .arduino ∧
      (∀ i ≤ s.length, m.progmem (base.ptr+offset+i) = s.getChar i) ∧
      stringAt m.progmem (base.ptr+offset) fuel = some s) ∨
    ((type = .static ∨ type = .heap) ∧
      (∀ i ≤ s.length, m.ram (baseAddr m base offset+i) = s.getChar i) ∧
      stringAt m.ram (baseAddr m base offset) fuel = some s)) := by
  obtain ⟨base, offset, hresolve, htype, ⟨region, hregion, hchars⟩, hroom, _⟩ :=
    h.resolve depth hdepth
  have hstring := stringAt_chars fuel (Nat.lt_of_le_of_lt h.length_le hfuel) hchars
  refine ⟨base, offset, hresolve, htype, ?_⟩
  rcases region_cases hregion with ⟨hprog, hbuild, rfl⟩ | ⟨htypes, rfl⟩
  · exact Or.inl ⟨hprog, hbuild, hchars, hstring⟩
  · have haddr : baseAddr m base offset = base.ptr+offset := by
      apply sizeT_of_lt
      rcases htypes with rfl | rfl <;> exact Nat.lt_of_le_of_lt (Nat.le_add_right _ _) hroom
    rw [haddr]
    exact Or.inr ⟨htypes, hchars, hstring⟩

theorem acts_strcpy (h : Acts m levels whole type s str) (hdepth : levels < depth)
    (hfuel : whole < fuel) : kstrStrcpy m fuel depth str = some s.bytes := by
  obtain ⟨base, offset, hresolve, htype, hplace⟩ := acts_base h hdepth hfuel
  simp only [kstrStrcpy, hresolve, Option.bind_eq_bind, Option.bind_some, htype]
  rcases hplace with ⟨rfl, hbuild, _, hstring⟩ | ⟨rfl | rfl, _, hstring⟩
  · simp only [hbuild, hstring, Option.map_some]
  · simp only [hstring, Option.map_some]
  · simp only [hstring, Option.map_some]

theorem acts_compareWith (h : Acts m levels whole type s str) (hdepth : levels < depth)
    (hfuel : whole < fuel) (near far : CStr → ℤ) : compareWith m near far fuel depth str =
      some (if type = .progmem then far s else near s) := by
  obtain ⟨base, offset, hresolve, htype, hplace⟩ := acts_base h hdepth hfuel
  simp only [compareWith, hresolve, Option.bind_eq_bind, Option.bind_some, htype]
  rcases hplace with ⟨rfl, hbuild, _, hstring⟩ | ⟨rfl | rfl, _, hstring⟩
  · simp only [hbuild, hstring, Option.map_some, if_true]
  · simp only [hstring, Option.map_some, reduceCtorEq, if_false]
  · simp only [hstring, Option.map_some, reduceCtorEq, if_false]

/-! ### Loops that read two strings -/

section Loops

variable {getA getB getA' getB' : ℕ → Option UInt8} {last : ℕ}

/-- A comparison reads no further than the end of either string. -/
theorem doubleCompareLoop_congr (within : ℕ → Bool) (hA : ∀ i ≤ last, getA i = getA' i)
    (hB : ∀ i ≤ last, getB i = getB' i) (hend : getA last = some 0 ∨ getB last = some 0)
    (i : ℕ) (hi : i ≤ last) :
    doubleCompareLoop m within getA getB i fuel =
      doubleCompareLoop m within getA' getB' i fuel := by
  induction fuel generalizing i with
  | zero => rfl
  | succ fuel ih =>
    rw [doubleCompareLoop, doubleCompareLoop, ← hA i hi, ← hB i hi]
    congr 1
    cases ha : getA i with
    | none => rfl
    | some aByte =>
      cases hb : getB i with
      | none => rfl
      | some bByte =>
        simp only [Option.bind_eq_bind, Option.bind_some]
        by_cases hless : aByte < bByte
        · rw [if_pos hless, if_pos hless]
        · rw [if_neg hless, if_neg hless]
          by_cases hmore : aByte > bByte
          · rw [if_pos hmore, if_pos hmore]
          · rw [if_neg hmore, if_neg hmore]
            by_cases hzero : aByte = 0
            · rw [if_pos hzero, if_pos hzero]
            · -- the bytes are equal and not the end, so the end lies further on
              have hsame : aByte = bByte :=
                UInt8.le_antisymm (by simpa using hmore) (by simpa using hless)
              have hne : i ≠ last := by
                rintro rfl
                rcases hend with hend | hend
                · exact hzero (Option.some.inj (ha.symm.trans hend))
                · exact hzero (hsame.trans (Option.some.inj (hb.symm.trans hend)))
              have hnext : m.build.sizeT (i+1) ≤ last :=
                Nat.le_trans (Nat.mod_le _ _) (by omega)
              rw [if_neg hzero, if_neg hzero, ih _ hnext]

/-- So does the search for the first characters that differ. -/
theorem matchLoop_congr (bits : ℕ) {differ : UInt8 → UInt8 → Bool}
    (hdiffer : ∀ a, a ≠ 0 → differ a 0 = true) (hA : ∀ i ≤ last, getA i = getA' i)
    (hB : ∀ i ≤ last, getB i = getB' i) (hend : getA last = some 0 ∨ getB last = some 0)
    (i : ℕ) (hi : i ≤ last) :
    matchLoop bits differ getA getB i fuel = matchLoop bits differ getA' getB' i fuel := by
  induction fuel generalizing i with
  | zero => rfl
  | succ fuel ih =>
    rw [matchLoop, matchLoop, ← hA i hi, ← hB i hi]
    cases ha : getA i with
    | none => rfl
    | some aByte =>
      cases hb : getB i with
      | none => rfl
      | some bByte =>
        simp only [Option.bind_eq_bind, Option.bind_some]
        by_cases hstop : aByte = 0 ∨ differ aByte bByte = true
        · rw [if_pos hstop, if_pos hstop]
        · have hne : i ≠ last := by
            rintro rfl
            apply hstop
            rcases hend with hend | hend
            · exact Or.inl (Option.some.inj (ha.symm.trans hend))
            · rw [Option.some.inj (hb.symm.trans hend)]
              by_cases hzero : aByte = 0
              · exact Or.inl hzero
              · exact Or.inr (hdiffer aByte hzero)
          have hnext : (i+1) % 2^bits ≤ last := Nat.le_trans (Nat.mod_le _ _) (by omega)
          rw [if_neg hstop, if_neg hstop, ih _ hnext]

theorem byteDiffers_zero (a : UInt8) (h : a ≠ 0) : byteDiffers a 0 = true := decide_eq_true h

theorem charDiffers_zero (a : UInt8) (h : a ≠ 0) : charDiffers a 0 = true := by
  apply decide_eq_true
  intro hzero
  have hsigned : a.toInt8 = 0 := Int8.toInt_inj.mp hzero
  exact h (by rw [← UInt8.toUInt8_toInt8 a, hsigned]; rfl)

end Loops

/-- The characters that match those of a string of C. -/
def matched (m : Machine) (type : KStrType) (fuel : ℕ) (a s : CStr) : Option ℕ :=
  if type = .progmem then
    matchLoop m.build.pointerBits charDiffers (fun i => some (a.getChar i))
      (fun i => some (s.getChar i)) 0 fuel
  else
    matchLoop m.build.unsignedBits byteDiffers (fun i => some (a.getChar i))
      (fun i => some (s.getChar i)) 0 fuel

theorem acts_matchLen (h : Acts m levels whole type s str) (hdepth : levels < depth)
    (hfuel : whole < fuel) (a : CStr) : kstrMatchLen m fuel depth a str =
      matched m type fuel a s := by
  obtain ⟨base, offset, hresolve, htype, hplace⟩ := acts_base h hdepth hfuel
  have hend := s.getChar_length
  simp only [kstrMatchLen, matched, hresolve, Option.bind_eq_bind, Option.bind_some, htype]
  rcases hplace with ⟨rfl, hbuild, hchars, _⟩ | ⟨rfl | rfl, hchars, _⟩
  · simp only [hbuild, if_true]
    exact matchLoop_congr _ charDiffers_zero (fun _ _ => rfl)
      (fun i hi => congrArg some (hchars i hi))
      (Or.inr (congrArg some ((hchars _ (Nat.le_refl _)).trans hend))) 0 (Nat.zero_le _)
  · simp only [reduceCtorEq, if_false]
    exact matchLoop_congr _ byteDiffers_zero (fun _ _ => rfl)
      (fun i hi => congrArg some (hchars i hi))
      (Or.inr (congrArg some ((hchars _ (Nat.le_refl _)).trans hend))) 0 (Nat.zero_le _)
  · simp only [reduceCtorEq, if_false]
    exact matchLoop_congr _ byteDiffers_zero (fun _ _ => rfl)
      (fun i hi => congrArg some (hchars i hi))
      (Or.inr (congrArg some ((hchars _ (Nat.le_refl _)).trans hend))) 0 (Nat.zero_le _)

end Answers

/-! ### Two strings that act alike -/

/-- With enough levels and characters to read, every function answers the same on both
strings, whatever it is given besides. -/
structure Agree (C : CLibrary) (m : Machine) (levels whole : ℕ) (s : CStr) (str plain : KStr) :
    Prop where
  getChar : ∀ depth, levels < depth → ∀ n ≤ s.length,
    kstrGetChar m depth str n = kstrGetChar m depth plain n
  strlen : ∀ depth, levels < depth → ∀ fuel, whole < fuel →
    kstrStrlen m fuel depth str = kstrStrlen m fuel depth plain
  strcpy : ∀ depth, levels < depth → ∀ fuel, whole < fuel →
    kstrStrcpy m fuel depth str = kstrStrcpy m fuel depth plain
  strcmp : ∀ depth, levels < depth → ∀ fuel, whole < fuel → ∀ a,
    kstrStrcmp C m fuel depth a str = kstrStrcmp C m fuel depth a plain
  strncmp : ∀ depth, levels < depth → ∀ fuel, whole < fuel → ∀ a n,
    kstrStrncmp C m fuel depth a str n = kstrStrncmp C m fuel depth a plain n
  matchLen : ∀ depth, levels < depth → ∀ fuel, whole < fuel → ∀ a,
    kstrMatchLen m fuel depth a str = kstrMatchLen m fuel depth a plain
  doubleStrcmp : ∀ depth, levels < depth → ∀ fuel other,
    kstrDoubleStrcmp m fuel depth str other = kstrDoubleStrcmp m fuel depth plain other ∧
    kstrDoubleStrcmp m fuel depth other str = kstrDoubleStrcmp m fuel depth other plain
  doubleStrncmp : ∀ depth, levels < depth → ∀ fuel other n,
    kstrDoubleStrncmp m fuel depth str other n = kstrDoubleStrncmp m fuel depth plain other n ∧
    kstrDoubleStrncmp m fuel depth other str n = kstrDoubleStrncmp m fuel depth other plain n
  doubleMatchLen : ∀ depth, levels < depth → ∀ fuel other,
    kstrDoubleMatchLen m fuel depth str other = kstrDoubleMatchLen m fuel depth plain other ∧
    kstrDoubleMatchLen m fuel depth other str = kstrDoubleMatchLen m fuel depth other plain

section Alike

variable {m : Machine} {levels whole : ℕ} {type : KStrType} {s : CStr} {str plain : KStr}

theorem acts_agree (C : CLibrary) (h : Acts m levels whole type s str)
    (h' : Acts m levels whole type s plain) : Agree C m levels whole s str plain := by
  have hnull := h.notNull.trans h'.notNull.symm
  have hread : ∀ depth, levels < depth → ∀ i ≤ s.length,
      kstrGetChar m depth str i = kstrGetChar m depth plain i := fun depth hdepth i hi =>
    (h.getChar depth hdepth i hi).trans (h'.getChar depth hdepth i hi).symm
  have hend : ∀ depth, levels < depth → kstrGetChar m depth str s.length = some 0 :=
    fun depth hdepth => (h.getChar depth hdepth _ (Nat.le_refl _)).trans
      (congrArg some s.getChar_length)
  constructor
  · exact hread
  · intro depth hdepth fuel hfuel
    rw [h.strlen depth hdepth fuel hfuel, h'.strlen depth hdepth fuel hfuel]
  · intro depth hdepth fuel hfuel
    rw [acts_strcpy h hdepth hfuel, acts_strcpy h' hdepth hfuel]
  · intro depth hdepth fuel hfuel a
    rw [kstrStrcmp, kstrStrcmp, acts_compareWith h hdepth hfuel, acts_compareWith h' hdepth hfuel]
  · intro depth hdepth fuel hfuel a n
    rw [kstrStrncmp, kstrStrncmp, acts_compareWith h hdepth hfuel,
      acts_compareWith h' hdepth hfuel]
  · intro depth hdepth fuel hfuel a
    rw [acts_matchLen h hdepth hfuel, acts_matchLen h' hdepth hfuel]
  · intro depth hdepth fuel other
    rw [kstrDoubleStrcmp, kstrDoubleStrcmp, kstrDoubleStrcmp, kstrDoubleStrcmp, hnull,
      doubleCompareLoop_congr _ (hread depth hdepth) (fun _ _ => rfl) (Or.inl (hend depth hdepth))
        0 (Nat.zero_le _),
      doubleCompareLoop_congr _ (fun _ _ => rfl) (hread depth hdepth) (Or.inr (hend depth hdepth))
        0 (Nat.zero_le _)]
    exact ⟨rfl, rfl⟩
  · intro depth hdepth fuel other n
    rw [kstrDoubleStrncmp, kstrDoubleStrncmp, kstrDoubleStrncmp, kstrDoubleStrncmp, hnull,
      doubleCompareLoop_congr _ (hread depth hdepth) (fun _ _ => rfl) (Or.inl (hend depth hdepth))
        0 (Nat.zero_le _),
      doubleCompareLoop_congr _ (fun _ _ => rfl) (hread depth hdepth) (Or.inr (hend depth hdepth))
        0 (Nat.zero_le _)]
    exact ⟨rfl, rfl⟩
  · intro depth hdepth fuel other
    rw [kstrDoubleMatchLen, kstrDoubleMatchLen, kstrDoubleMatchLen, kstrDoubleMatchLen, hnull,
      matchLoop_congr _ byteDiffers_zero (hread depth hdepth) (fun _ _ => rfl)
        (Or.inl (hend depth hdepth)) 0 (Nat.zero_le _),
      matchLoop_congr _ byteDiffers_zero (fun _ _ => rfl) (hread depth hdepth)
        (Or.inr (hend depth hdepth)) 0 (Nat.zero_le _)]
    exact ⟨rfl, rfl⟩

end Alike

/-! ### Chains -/

/-- The offset strings of a list of sources and offsets, each allocated over the last. -/
def allocChain (build : Build) : KStr → List (ℕ × ℕ) → KStr
  | str, [] => str
  | _, (src, offset)::links => allocChain build (kstrAllocOffset build src offset) links

/-- Every string of the chain is where the next one points, and stays there. -/
def Kept (m : Machine) : KStr → List (ℕ × ℕ) → Prop
  | _, [] => True
  | str, (src, offset)::links =>
      m.kstr src = str ∧ src < 2^m.build.pointerBits ∧
        Kept m (kstrAllocOffset m.build src offset) links

def total (links : List (ℕ × ℕ)) : ℕ := (links.map Prod.snd).sum

/-- What is stored of the offsets. -/
def storedTotal (links : List (ℕ × ℕ)) : ℕ := (links.map (fun l => l.2 % 256)).sum

section Chain

variable {m : Machine} {base : KStr} {s : CStr} {links : List (ℕ × ℕ)}

theorem total_cons (link : ℕ × ℕ) (links : List (ℕ × ℕ)) :
    total (link::links) = link.2+total links := rfl

theorem storedTotal_cons (link : ℕ × ℕ) (links : List (ℕ × ℕ)) :
    storedTotal (link::links) = link.2 % 256+storedTotal links := rfl

theorem storedTotal_le (links : List (ℕ × ℕ)) : storedTotal links ≤ total links := by
  induction links with
  | nil => exact Nat.le_refl 0
  | cons link links ih =>
    rw [storedTotal_cons, total_cons]
    have hle := Nat.mod_le link.2 256
    omega

/-- Nothing of the offsets is lost when they all fit. -/
theorem storedTotal_eq_iff (hmax : ∀ l ∈ links, l.2 ≤ KStrOffsetMax) :
    storedTotal links = total links ↔ ∀ l ∈ links, l.2 < KStrOffsetMax := by
  induction links with
  | nil => simp [storedTotal, total]
  | cons link links ih =>
    have hbound : KStrOffsetMax = 256 := rfl
    have hle := storedTotal_le links
    have hlink := hmax link (List.mem_cons_self ..)
    rw [List.forall_mem_cons, ← ih (fun l hl => hmax l (List.mem_cons_of_mem _ hl)),
      storedTotal_cons, total_cons]
    omega

theorem allocChain_over {str : KStr} {t levels : ℕ} (h : Over m base t levels str)
    (hkept : Kept m str links) (hmax : ∀ l ∈ links, l.2 ≤ KStrOffsetMax) :
    Over m base (t+storedTotal links) (levels+links.length) (allocChain m.build str links) := by
  induction links generalizing str t levels with
  | nil => exact h
  | cons link links ih =>
    obtain ⟨hmem, hsrc, hrest⟩ := hkept
    have hlink := hmax link (List.mem_cons_self ..)
    have hover := Over.offset h hmem (kstrAllocOffset_points link.2 hsrc)
    rw [clampOffset_of_le hlink] at hover
    have hchain := ih hover hrest (fun l hl => hmax l (List.mem_cons_of_mem _ hl))
    rw [storedTotal_cons, ← Nat.add_assoc, List.length_cons, Nat.add_comm links.length 1,
      ← Nat.add_assoc]
    exact hchain

theorem kept_asserts {str : KStr} (hkept : Kept m str links)
    (h : ∀ l ∈ links, l.2 < KStrOffsetMax) :
    ∀ l ∈ links, kstrAllocOffsetAsserts m.build l.1 l.2 := by
  induction links generalizing str with
  | nil => simp
  | cons link links ih =>
    obtain ⟨_, hsrc, hrest⟩ := hkept
    rw [List.forall_mem_cons]
    constructor
    · exact kstrAllocOffset_asserted hsrc (h link (List.mem_cons_self ..))
    · exact ih hrest (fun l hl => h l (List.mem_cons_of_mem _ hl))

end Chain

/-- A chain of offset strings over a string acts as its suffix, and the assertions hold,
exactly when every offset is below the maximum. -/
theorem offsetChain_agrees_iff (C : CLibrary) (m : Machine) (base : KStr) (s : CStr)
    (hbase : Shows m base s) (links : List (ℕ × ℕ)) (hkept : Kept m base links)
    (hmax : ∀ l ∈ links, l.2 ≤ KStrOffsetMax) (htotal : total links ≤ s.length) :
    ((∀ l ∈ links, kstrAllocOffsetAsserts m.build l.1 l.2) ∧
      ∀ plain, plain.type = base.type → Shows m plain (s.drop (total links)) →
        Agree C m links.length s.length (s.drop (total links)) (allocChain m.build base links)
          plain) ↔ ∀ l ∈ links, l.2 < KStrOffsetMax := by
  have hover := allocChain_over .base hkept hmax
  rw [Nat.zero_add, Nat.zero_add] at hover
  have hstored := storedTotal_le links
  have hacts := over_acts hbase hover (by omega)
  constructor
  · rintro ⟨_, hagree⟩
    rw [← storedTotal_eq_iff hmax]
    obtain ⟨plain, htype, hplain⟩ : ∃ plain : KStr, plain.type = base.type ∧
        Shows m plain (s.drop (total links)) :=
      ⟨{ base with ptr := base.ptr+total links }, rfl, stringIn_drop hbase htotal⟩
    have hacts' := shows_acts hplain links.length s.length (by simp)
    have hcopy := (hagree plain htype hplain).strcpy (links.length+1) (Nat.lt_succ_self _)
      (s.length+1) (Nat.lt_succ_self _)
    rw [acts_strcpy hacts (Nat.lt_succ_self _) (Nat.lt_succ_self _),
      acts_strcpy hacts' (Nat.lt_succ_self _) (Nat.lt_succ_self _)] at hcopy
    have hlength := congrArg List.length (CStr.bytes_injective (Option.some.inj hcopy))
    rw [List.length_drop, List.length_drop] at hlength
    omega
  · intro hsmall
    refine ⟨kept_asserts hkept hsmall, fun plain htype hplain => ?_⟩
    rw [(storedTotal_eq_iff hmax).mpr hsmall] at hacts
    have hacts' := shows_acts hplain links.length s.length (by simp)
    rw [htype] at hacts'
    exact acts_agree C hacts hacts'

/-- The comparisons that answer the difference of the first bytes that differ. -/
def byteComparisons : CLibrary where
  strcmp a b := Compare.firstDiff a.bytes b.bytes
  strcmp_PF a b := Compare.firstDiff a.bytes b.bytes
  strncmp a b n := Compare.firstDiff (a.bytes.take n) (b.bytes.take n)
  strncmp_PF a b n := Compare.firstDiff (a.bytes.take n) (b.bytes.take n)

def letterA : CChar := ⟨97, by decide⟩

/-- A string of 256 characters at address 0, and two offset strings on it. -/
def longMachine (build : Build) : Machine where
  build := build
  kstr n := if n = 1 then kstrAllocOffset build 0 200 else ⟨.static, 0, 0, 0⟩
  ram i := if i < 256 then 97 else 0
  progmem _ := 0

theorem long_shows (build : Build) {t : ℕ} (ht : t ≤ 256) :
    Shows (longMachine build) ⟨.static, 0, 0, t⟩ (List.replicate (256-t) letterA) := by
  refine ⟨⟨_, rfl, ?_⟩, ?_, ?_⟩
  · intro i hi
    rw [List.length_replicate] at hi
    simp only [longMachine]
    by_cases hlt : i < 256-t
    · rw [if_pos (by omega), CStr.getChar_getElem _ i (by simpa using hlt), List.getElem_replicate]
      rfl
    · have hend : i = (List.replicate (256-t) letterA).length := by
        rw [List.length_replicate]
        omega
      rw [if_neg (by omega), hend, CStr.getChar_length]
  · rw [List.length_replicate]
    cases build <;> simp [longMachine, Build.space, Build.pointerBits] <;> omega
  · rw [List.length_replicate]
    cases build <;> simp [longMachine, Build.pointerBits] <;> omega

/-- 200 and 55 characters are dropped. -/
theorem long_agrees : Agree byteComparisons (longMachine .arduino) 2 256 [letterA]
    (allocChain .arduino ⟨.static, 0, 0, 0⟩ [(0, 200), (1, 55)]) ⟨.static, 0, 0, 255⟩ := by
  have hlength : (List.replicate 256 letterA).length = 256 := List.length_replicate
  have hagrees := (offsetChain_agrees_iff byteComparisons (longMachine .arduino)
    ⟨.static, 0, 0, 0⟩ (List.replicate 256 letterA) (long_shows .arduino (Nat.zero_le _))
    [(0, 200), (1, 55)] ⟨rfl, by decide, rfl, by decide, trivial⟩ (by decide)
    (by rw [hlength]; decide)).mpr (by decide)
  have hplain := hagrees.2 ⟨.static, 0, 0, 255⟩ rfl
    (long_shows .arduino (t := 255) (by omega))
  rw [hlength] at hplain
  exact hplain

/-- An offset of 256, the maximum, is stored as 0, where the characters of the string
without its first 256 end at once. -/
theorem maximum_lost : ¬ kstrAllocOffsetAsserts .arduino 0 KStrOffsetMax ∧ ∀ build,
    Shows (longMachine build) ⟨.static, 0, 0, 0⟩ (List.replicate 256 letterA) ∧
    Kept (longMachine build) ⟨.static, 0, 0, 0⟩ [(0, KStrOffsetMax)] ∧
    Shows (longMachine build) ⟨.static, 0, 0, 256⟩ [] ∧
    kstrGetChar (longMachine build) 2
      (allocChain build ⟨.static, 0, 0, 0⟩ [(0, KStrOffsetMax)]) 0 = some 97 ∧
    kstrGetChar (longMachine build) 2 ⟨.static, 0, 0, 256⟩ 0 = some 0 := by
  refine ⟨fun h => absurd h.1 (by decide), fun build => ?_⟩
  refine ⟨long_shows build (Nat.zero_le _), ?_, long_shows build (Nat.le_refl _), ?_⟩
  · exact ⟨rfl, by cases build <;> decide, trivial⟩
  · cases build <;> decide

end ArduinoOS.Kernel.KStrings
