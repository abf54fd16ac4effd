import ArduinoOS.Hardware.SdCardReader

/-!
# The cache is invisible

A cache that is valid and clean is a copy of its block. This is kept by every
transfer, whether it fails or not, and the bytes of the card behind the cache
change by writes alone.
-/

set_option autoImplicit false

namespace ArduinoOS.Hardware
open ArduinoOS.Kernel

def cardByte (card : SdCard) (addr : ℕ) : UInt8 :=
  card.blocks (addr/SdBlockSize) (Fin.ofNat 512 addr)

/-- The byte that is read at an address. -/
def logical (r : SdCardReader) (addr : ℕ) : UInt8 :=
  if r.cacheIsValid = true ∧ addr/SdBlockSize = r.cacheBlock then r.cache (Fin.ofNat 512 addr)
  else cardByte r.sdCard addr

/-- What is in the cache and has not been changed is on the card. -/
def Coherent (r : SdCardReader) : Prop :=
  r.cacheIsValid = true → r.cacheIsDirty = false → r.cache = r.sdCard.blocks r.cacheBlock

/-- Bytes placed in an array. -/
def written (array : ℕ → UInt8) (addr : ℕ) (data : List UInt8) : ℕ → UInt8 :=
  fun a => if addr ≤ a then (data[a-addr]?).getD (array a) else array a

theorem written_nil (array : ℕ → UInt8) (addr : ℕ) : written array addr [] = array := by
  funext a
  simp [written]

/-- A write in two parts. -/
theorem written_append (array : ℕ → UInt8) (addr : ℕ) (data rest : List UInt8) :
    written (written array addr data) (addr+data.length) rest = written array addr (data++rest) := by
  funext a
  by_cases hbelow : addr ≤ a
  · by_cases hin : a-addr < data.length
    · simp [written, hbelow, List.getElem?_append_left hin, show ¬ addr+data.length ≤ a by omega]
    · have hout : data.length ≤ a-addr := by omega
      have hplace : a-(addr+data.length) = a-addr-data.length := by omega
      simp [written, hbelow, List.getElem?_append_right hout, show addr+data.length ≤ a by omega,
        hplace, List.getElem?_eq_none hout]
  · simp [written, hbelow, show ¬ addr+data.length ≤ a by omega]

/-- A clean cache is not seen. -/
theorem logical_clean {r : SdCardReader}
    (h : r.cacheIsValid = true → r.cache = r.sdCard.blocks r.cacheBlock) :
    logical r = cardByte r.sdCard := by
  funext a
  rw [logical]
  split
  case isTrue hin => rw [h hin.1, cardByte, hin.2]
  case isFalse => rfl

section Transfers

variable {bus : ℕ → SdTransfer} {s s' : SdState} {b : Bool} {block : ℕ}

/-- The card with the cache in this block. -/
def SdCardReader.saved (r : SdCardReader) (block : ℕ) : SdCard :=
  { r.sdCard with blocks := Function.update r.sdCard.blocks block r.cache }

theorem writeBlock_cases (bus : ℕ → SdTransfer) (s : SdState) (block : ℕ) :
    (∃ n, sdWriteBlock bus block s = (false, ⟨s.reader, n⟩)) ∨
    ∃ n, sdWriteBlock bus block s =
      (true, ⟨{ s.reader with sdCard := s.reader.saved block }, n⟩) := by
  rw [sdWriteBlock]
  split
  case isTrue => exact Or.inl ⟨_, rfl⟩
  case isFalse =>
    cases bus s.transfers with
    | done => exact Or.inr ⟨_, rfl⟩
    | failed left => exact Or.inl ⟨_, rfl⟩

theorem readBlock_cases (bus : ℕ → SdTransfer) (s : SdState) (block : ℕ) :
    (∃ left n, sdReadBlock bus block s = (false, ⟨{ s.reader with cache := left }, n⟩)) ∨
    ∃ n, sdReadBlock bus block s =
      (true, ⟨{ s.reader with cache := s.reader.sdCard.blocks block }, n⟩) := by
  rw [sdReadBlock]
  split
  case isTrue => exact Or.inl ⟨s.reader.cache, _, rfl⟩
  case isFalse =>
    cases bus s.transfers with
    | done => exact Or.inr ⟨_, rfl⟩
    | failed left => exact Or.inl ⟨left, _, rfl⟩

theorem saved_block (r : SdCardReader) :
    r.cache = (r.saved r.cacheBlock).blocks r.cacheBlock := by
  change r.cache = Function.update r.sdCard.blocks r.cacheBlock r.cache r.cacheBlock
  rw [Function.update_self]

/-- With the cached block in its place the card is what was read before. -/
theorem saved_logical {r : SdCardReader} (hvalid : r.cacheIsValid = true) :
    cardByte (r.saved r.cacheBlock) = logical r := by
  funext a
  change Function.update r.sdCard.blocks r.cacheBlock r.cache (a/SdBlockSize) (Fin.ofNat 512 a) = _
  rw [logical]
  by_cases hblock : a/SdBlockSize = r.cacheBlock
  · rw [if_pos ⟨hvalid, hblock⟩, hblock, Function.update_self]
  · rw [if_neg (fun h => hblock h.2), Function.update_of_ne hblock, cardByte]

/-- What the steps on the cache keep. -/
structure Kept (s s' : SdState) : Prop where
  coherent : Coherent s'.reader
  same : logical s'.reader = logical s.reader

/-- The cache has been saved and is clean now. -/
theorem saved_kept {n : ℕ} (hvalid : s.reader.cacheIsValid = true) :
    Kept s ⟨{ s.reader with
      sdCard := s.reader.saved s.reader.cacheBlock, cacheIsDirty := false }, n⟩ := by
  have hcopy := saved_block s.reader
  refine ⟨fun _ _ => hcopy, ?_⟩
  rw [← saved_logical hvalid]
  exact logical_clean (fun _ => hcopy)

theorem writeBack_kept (hc : Coherent s.reader) (h : writeBack bus block s = (b, s')) :
    Kept s s' ∧ (b = true → s'.reader.cacheIsValid = true → block ≠ s'.reader.cacheBlock →
      s'.reader.cacheIsDirty = false) := by
  rw [writeBack] at h
  split at h
  case isFalse hnot =>
    cases h
    exact ⟨⟨hc, rfl⟩, fun _ hvalid hne =>
      Bool.eq_false_iff.mpr (fun hdirty => hnot ⟨hvalid, hne, hdirty⟩)⟩
  case isTrue hdirty =>
    rcases writeBlock_cases bus s s.reader.cacheBlock with ⟨n, hw⟩ | ⟨n, hw⟩
    · rw [hw] at h
      cases h
      exact ⟨⟨hc, rfl⟩, fun h => nomatch h⟩
    · rw [hw] at h
      cases h
      exact ⟨saved_kept hdirty.1, fun _ _ _ => rfl⟩

theorem readMissing_kept (hc : Coherent s.reader)
    (hclean : s.reader.cacheIsValid = true → block ≠ s.reader.cacheBlock →
      s.reader.cacheIsDirty = false) (hblock : block < 2^30)
    (h : readMissing bus block s = (b, s')) :
    Kept s s' ∧ (b = true → s'.reader.cacheIsValid = true ∧ s'.reader.cacheBlock = block) := by
  rw [readMissing] at h
  split at h
  case isFalse hthere =>
    cases h
    obtain ⟨hvalid, hsame⟩ := not_or.mp hthere
    exact ⟨⟨hc, rfl⟩, fun _ => ⟨Bool.not_eq_false _ ▸ hvalid, (not_not.mp hsame).symm⟩⟩
  case isTrue hmissing =>
    have hcopy : s.reader.cacheIsValid = true →
        s.reader.cache = s.reader.sdCard.blocks s.reader.cacheBlock := by
      intro hvalid
      refine hc hvalid (hclean hvalid ?_)
      exact hmissing.resolve_left (fun hinvalid => by rw [hvalid] at hinvalid; cases hinvalid)
    have hcard := logical_clean hcopy
    rcases readBlock_cases bus s block with ⟨left, n, hr⟩ | ⟨n, hr⟩
    · rw [hr] at h
      cases h
      refine ⟨⟨fun hvalid => (nomatch hvalid), ?_⟩, fun h => nomatch h⟩
      rw [hcard]
      exact logical_clean (fun hvalid => nomatch hvalid)
    · rw [hr] at h
      cases h
      have hplace : block % 2^30 = block := Nat.mod_eq_of_lt hblock
      have hread : s.reader.sdCard.blocks block = s.reader.sdCard.blocks (block % 2^30) := by
        rw [hplace]
      refine ⟨⟨fun _ _ => hread, ?_⟩, fun _ => ⟨rfl, hplace⟩⟩
      rw [hcard]
      exact logical_clean (fun _ => hread)

/-- Whether it fails or not, bringing a block in changes nothing that is read. -/
theorem loadBlock_kept (hc : Coherent s.reader) (hblock : block < 2^30)
    (h : loadBlock bus block s = (b, s')) :
    Kept s s' ∧ (b = true → s'.reader.cacheIsValid = true ∧ s'.reader.cacheBlock = block) := by
  rw [loadBlock] at h
  split at h
  case h_1 s₁ hback =>
    cases h
    exact ⟨(writeBack_kept hc hback).1, fun h => by cases h⟩
  case h_2 s₁ hback =>
    obtain ⟨hkept, hclean⟩ := writeBack_kept hc hback
    obtain ⟨hkept', hin⟩ := readMissing_kept hkept.coherent (hclean rfl) hblock h
    exact ⟨⟨hkept'.coherent, hkept'.same.trans hkept.same⟩, hin⟩

theorem flushBlock_kept (hc : Coherent s.reader) (h : flushBlock bus s = (b, s')) :
    Kept s s' ∧ (b = true → cardByte s'.reader.sdCard = logical s.reader) := by
  rw [flushBlock] at h
  split at h
  case isTrue hnothing =>
    cases h
    refine ⟨⟨hc, rfl⟩, fun _ => (logical_clean (fun hvalid => hc hvalid ?_)).symm⟩
    exact hnothing.resolve_left (fun hinvalid => by rw [hvalid] at hinvalid; cases hinvalid)
  case isFalse hdirty =>
    have hvalid : s.reader.cacheIsValid = true := Bool.not_eq_false _ ▸ (not_or.mp hdirty).1
    rcases writeBlock_cases bus s s.reader.cacheBlock with ⟨n, hw⟩ | ⟨n, hw⟩
    · rw [hw] at h
      cases h
      exact ⟨⟨hc, rfl⟩, fun h => nomatch h⟩
    · rw [hw] at h
      cases h
      exact ⟨saved_kept hvalid, fun _ => saved_logical hvalid⟩

/-! ### The loops -/

theorem ofNat_offset (addr : ℕ) : Fin.ofNat 512 (blockOffset addr) = Fin.ofNat 512 addr := by
  rw [blockOffset_eq]
  exact Fin.ext (Nat.mod_mod addr 512)

/-- The bytes that are read are those of the array. -/
theorem readLoop_reads {addr len : ℕ} (hc : Coherent s.reader) (hend : addr+len ≤ 4294967296) :
    ∃ bytes s', readLoop bus addr s len = .ok (bytes, s') ∧ Kept s s' ∧ bytes.length ≤ len ∧
      ∀ k < bytes.length, bytes[k]? = some (logical s.reader (addr+k)) := by
  induction len generalizing addr s with
  | zero => exact ⟨[], s, rfl, ⟨hc, rfl⟩, Nat.le_refl 0, fun k hk => absurd hk (Nat.not_lt_zero k)⟩
  | succ len ih =>
    have hsize : SdBlockSize = 512 := rfl
    rcases hload : loadBlock bus (addr/SdBlockSize) s with ⟨b, s₁⟩
    obtain ⟨hkept, hin⟩ := loadBlock_kept hc (by rw [hsize]; omega) hload
    cases b with
    | false =>
      refine ⟨[], s₁, by rw [readLoop, hload], hkept, Nat.zero_le _, fun k hk => ?_⟩
      exact absurd hk (Nat.not_lt_zero k)
    | true =>
      obtain ⟨hvalid, hplace⟩ := hin rfl
      obtain ⟨rest, s₂, hrest, hkept', hlen, hbytes⟩ : ∃ rest s₂,
          readLoop bus (u32 (addr+1)) s₁ len = .ok (rest, s₂) ∧ Kept s₁ s₂ ∧ rest.length ≤ len ∧
          ∀ k < rest.length, rest[k]? = some (logical s₁.reader (addr+1+k)) := by
        by_cases hlast : len = 0
        · subst hlast
          exact ⟨[], s₁, rfl, ⟨hkept.coherent, rfl⟩, Nat.le_refl 0,
            fun k hk => absurd hk (Nat.not_lt_zero k)⟩
        · rw [u32_of_lt (by omega)]
          exact ih hkept.coherent (by omega)
      refine ⟨s₁.reader.cache (Fin.ofNat 512 (blockOffset addr))::rest, s₂, ?_,
        ⟨hkept'.coherent, hkept'.same.trans hkept.same⟩, by rw [List.length_cons]; omega,
        fun k hk => ?_⟩
      · rw [readLoop, hload]
        change (if s₁.reader.cacheBlock ≠ addr/SdBlockSize then _ else _) = _
        rw [if_neg (not_not.mpr hplace), hrest]
        rfl
      · rw [← hkept.same]
        cases k with
        | zero =>
          rw [List.getElem?_cons_zero, ofNat_offset, Nat.add_zero, logical,
            if_pos ⟨hvalid, hplace.symm⟩]
        | succ k =>
          rw [List.length_cons] at hk
          rw [List.getElem?_cons_succ, hbytes k (by omega), Nat.add_assoc, Nat.add_comm 1 k]

/-- A part of the cached block is overwritten. -/
theorem intoCache_logical {addr : ℕ} {data : List UInt8} (hvalid : s.reader.cacheIsValid = true)
    (hplace : s.reader.cacheBlock = addr/SdBlockSize) (hfits : addr%512+data.length ≤ 512) :
    logical { s.reader with
      cache := intoCache s.reader.cache (blockOffset addr) data, cacheIsDirty := true } =
      written (logical s.reader) addr data := by
  funext a
  have hsize : SdBlockSize = 512 := rfl
  have hoffset : (Fin.ofNat 512 a).val = a%512 := rfl
  have hleft : logical { s.reader with
      cache := intoCache s.reader.cache (blockOffset addr) data, cacheIsDirty := true } a =
      if s.reader.cacheIsValid = true ∧ a/SdBlockSize = s.reader.cacheBlock then
        intoCache s.reader.cache (blockOffset addr) data (Fin.ofNat 512 a)
      else cardByte s.reader.sdCard a := rfl
  rw [hleft, written, logical]
  by_cases hblock : a/SdBlockSize = s.reader.cacheBlock
  · have hin : s.reader.cacheIsValid = true ∧ a/SdBlockSize = s.reader.cacheBlock :=
      ⟨hvalid, hblock⟩
    rw [hsize] at hblock hplace
    rw [if_pos hin, if_pos hin, intoCache, blockOffset_eq, hoffset]
    by_cases hbelow : addr ≤ a
    · have hindex : a%512-addr%512 = a-addr := by omega
      rw [if_pos (by omega), if_pos hbelow, hindex]
    · rw [if_neg (by omega), if_neg hbelow]
  · have hout : ¬ (s.reader.cacheIsValid = true ∧ a/SdBlockSize = s.reader.cacheBlock) :=
      fun h => hblock h.2
    rw [hsize] at hblock hplace
    rw [if_neg hout, if_neg hout]
    split
    case isFalse => rfl
    case isTrue hbelow => rw [List.getElem?_eq_none (by omega), Option.getD_none]

/-- The leading bytes that are counted are written, and no others. -/
theorem writeLoop_writes {addr : ℕ} {data : List UInt8} (hc : Coherent s.reader)
    (hend : addr+data.length ≤ 4294967296) :
    ∃ n s', writeLoop bus addr data s = .ok (n, s') ∧ Coherent s'.reader ∧ n ≤ data.length ∧
      logical s'.reader = written (logical s.reader) addr (data.take n) := by
  induction hn : data.length using Nat.strong_induction_on generalizing addr data s with
  | _ left ih =>
    have hsize : SdBlockSize = 512 := rfl
    rw [writeLoop]
    split
    case isTrue hnil => exact ⟨0, s, rfl, hc, Nat.zero_le _, by rw [List.take_zero, written_nil]⟩
    case isFalse hdata =>
      have hpos := List.length_pos_iff.mpr hdata
      dsimp only
      rcases hload : loadBlock bus (addr/SdBlockSize) s with ⟨b, s₁⟩
      obtain ⟨hkept, hin⟩ := loadBlock_kept hc (by rw [hsize]; omega) hload
      cases b with
      | false =>
        exact ⟨0, s₁, rfl, hkept.coherent, Nat.zero_le _,
          by rw [List.take_zero, written_nil, hkept.same]⟩
      | true =>
        obtain ⟨hvalid, hplace⟩ := hin rfl
        -- one span, up to the end of the block or of the data
        obtain ⟨span, hspan⟩ : ∃ span, span = min (SdBlockSize-blockOffset addr) data.length :=
          ⟨_, rfl⟩
        have hbounds : 0 < span ∧ span ≤ data.length ∧ addr%512+span ≤ 512 := by
          rw [hspan, hsize, blockOffset_eq]
          omega
        obtain ⟨s₂, hs₂⟩ : ∃ s₂ : SdState, s₂ = ⟨{ s₁.reader with
            cache := intoCache s₁.reader.cache (blockOffset addr) (data.take span),
            cacheIsDirty := true }, s₁.transfers⟩ := ⟨_, rfl⟩
        have hc₂ : Coherent s₂.reader := by
          rw [hs₂]
          exact fun _ hclean => nomatch hclean
        have htake : (data.take span).length = span := by
          rw [List.length_take]
          omega
        have hlogical : logical s₂.reader = written (logical s.reader) addr (data.take span) := by
          rw [hs₂, ← hkept.same]
          exact intoCache_logical hvalid hplace (by omega)
        obtain ⟨n, s₃, hrest, hc₃, hle, hrest'⟩ : ∃ n s₃,
            writeLoop bus (u32 (addr+span)) (data.drop span) s₂ = .ok (n, s₃) ∧
            Coherent s₃.reader ∧ n ≤ (data.drop span).length ∧ logical s₃.reader =
              written (logical s₂.reader) (addr+span) ((data.drop span).take n) := by
          by_cases hlast : data.length = span
          · have hnil : data.drop span = [] := List.drop_of_length_le (by omega)
            refine ⟨0, s₂, ?_, hc₂, Nat.zero_le _, by rw [List.take_zero, written_nil]⟩
            rw [hnil, writeLoop]
            rfl
          · rw [u32_of_lt (by omega)]
            exact ih _ (by rw [List.length_drop]; omega) hc₂
              (by rw [List.length_drop]; omega) rfl
        rw [List.length_drop] at hle
        refine ⟨span+n, s₃, ?_, hc₃, by omega, ?_⟩
        · change (if s₁.reader.cacheIsValid = false ∨ s₁.reader.cacheBlock ≠ addr/SdBlockSize
            then _ else _) = _
          have hasserts : ¬ (s₁.reader.cacheIsValid = false ∨
              s₁.reader.cacheBlock ≠ addr/SdBlockSize) := by
            rw [hvalid]
            exact fun h => h.elim (fun h => nomatch h) (fun h => h hplace)
          rw [if_neg hasserts, ← hspan, ← hs₂, hrest]
          rfl
        · rw [hrest', hlogical, List.take_add]
          have happend := written_append (logical s.reader) addr (data.take span)
            ((data.drop span).take n)
          rwa [htake] at happend

end Transfers

/-! ### Runs -/

/-- The calls of the readers' functors. -/
inductive SdCall
  | flush (id : ℕ)
  | read (id addr len : ℕ) (fits : addr+len ≤ 4294967296)
  | write (id addr : ℕ) (data : List UInt8) (fits : addr+data.length ≤ 4294967296)

/-- A call with what it gave; a flush with the card behind it. -/
inductive SdEvent
  | flush (id : ℕ) (done : Bool) (card : SdCard)
  | read (id addr len : ℕ) (bytes : List UInt8)
  | write (id addr : ℕ) (data : List UInt8) (writeCount : ℕ)

section Runs

variable (bus : ℕ → SdTransfer)

def sdCall (h : HwState) : SdCall → Except Fault (SdEvent × HwState)
  | .flush id =>
      let r := hwDeviceSdCardReaderFlushFunctor bus id h
      .ok (.flush id r.1 (r.2.hwDevices id).sdCardReader.sdCard, r.2)
  | .read id addr len _ =>
      (hwDeviceSdCardReaderReadFunctor bus addr len id h).map
        (fun r => (.read id addr len r.1, r.2))
  | .write id addr data _ =>
      (hwDeviceSdCardReaderWriteFunctor bus addr data id h).map
        (fun r => (.write id addr data r.1, r.2))

def sdCalls (h : HwState) : List SdCall → Except Fault (List SdEvent × HwState)
  | [] => .ok ([], h)
  | c::rest => do
      let r ← sdCall bus h c
      let r' ← sdCalls r.2 rest
      .ok (r.1::r'.1, r'.2)

/-- The events are those of plain arrays of bytes, one for each reader. -/
def Explains (arrays : ℕ → ℕ → UInt8) : List SdEvent → (ℕ → ℕ → UInt8) → Prop
  | [], arrays' => arrays' = arrays
  | .flush id done card::rest, arrays' =>
      (done = true → cardByte card = arrays id) ∧ Explains arrays rest arrays'
  | .read id addr len bytes::rest, arrays' =>
      (bytes.length ≤ len ∧ ∀ k < bytes.length, bytes[k]? = some (arrays id (addr+k))) ∧
        Explains arrays rest arrays'
  | .write id addr data writeCount::rest, arrays' =>
      writeCount ≤ data.length ∧
        Explains (Function.update arrays id
          (written (arrays id) addr (data.take writeCount))) rest arrays'

def HwState.arrays (h : HwState) (id : ℕ) : ℕ → UInt8 := logical (h.hwDevices id).sdCardReader

def HwState.Coherent (h : HwState) : Prop := ∀ id, Hardware.Coherent (h.hwDevices id).sdCardReader

variable {bus} {h : HwState} {id : ℕ} {s : SdState}

theorem setSdState_coherent (hc : h.Coherent) (hs : Coherent s.reader) :
    (h.setSdState id s).Coherent := by
  intro i
  rw [setSdState_reader]
  split
  · exact hs
  · exact hc i

theorem setSdState_arrays (h : HwState) (id : ℕ) (s : SdState) :
    (h.setSdState id s).arrays = Function.update h.arrays id (logical s.reader) := by
  funext i
  rw [HwState.arrays, setSdState_reader]
  split
  case isTrue hi => rw [hi, Function.update_self]
  case isFalse hi => rw [Function.update_of_ne hi, HwState.arrays]

theorem setSdState_same (hs : logical s.reader = h.arrays id) :
    (h.setSdState id s).arrays = h.arrays := by
  rw [setSdState_arrays, hs, Function.update_eq_self]

/-- One call is one step of the arrays. -/
theorem sdCall_explained (hc : h.Coherent) (c : SdCall) :
    ∃ event h', sdCall bus h c = .ok (event, h') ∧ h'.Coherent ∧
      Explains h.arrays [event] h'.arrays := by
  cases c with
  | flush id =>
    rw [sdCall, hwDeviceSdCardReaderFlushFunctor]
    split
    case isFalse => exact ⟨_, _, rfl, hc, fun h => (nomatch h), rfl⟩
    case isTrue =>
      obtain ⟨hkept, hdone⟩ := flushBlock_kept (hc id)
        (rfl : flushBlock bus (h.sdState id) = (_, (flushBlock bus (h.sdState id)).2))
      refine ⟨_, _, rfl, setSdState_coherent hc hkept.coherent, fun htrue => ?_,
        setSdState_same hkept.same⟩
      rw [setSdState_reader, if_pos rfl]
      exact hdone htrue
  | read id addr len fits =>
    rw [sdCall, hwDeviceSdCardReaderReadFunctor]
    split
    case isFalse =>
      exact ⟨_, _, rfl, hc, ⟨Nat.zero_le _, fun k hk => absurd hk (Nat.not_lt_zero k)⟩, rfl⟩
    case isTrue =>
      obtain ⟨bytes, s', hrun, hkept, hlen, hbytes⟩ : ∃ bytes s', readLoop bus addr (h.sdState id)
          len = .ok (bytes, s') ∧ Kept (h.sdState id) s' ∧ bytes.length ≤ len ∧
          ∀ k < bytes.length, bytes[k]? = some (logical (h.sdState id).reader (addr+k)) :=
        readLoop_reads (hc id) fits
      rw [hrun]
      exact ⟨_, _, rfl, setSdState_coherent hc hkept.coherent, ⟨hlen, hbytes⟩,
        setSdState_same hkept.same⟩
  | write id addr data fits =>
    rw [sdCall, hwDeviceSdCardReaderWriteFunctor]
    split
    case isFalse =>
      refine ⟨_, _, rfl, hc, Nat.zero_le _, ?_⟩
      rw [List.take_zero, written_nil, Function.update_eq_self]
      rfl
    case isTrue =>
      obtain ⟨n, s', hrun, hcoherent, hle, hwritten⟩ : ∃ n s', writeLoop bus addr data
          (h.sdState id) = .ok (n, s') ∧ Coherent s'.reader ∧ n ≤ data.length ∧
          logical s'.reader = written (logical (h.sdState id).reader) addr (data.take n) :=
        writeLoop_writes (hc id) fits
      rw [hrun]
      refine ⟨_, _, rfl, setSdState_coherent hc hcoherent, hle, ?_⟩
      rw [setSdState_arrays, hwritten]
      rfl

theorem explains_cons {arrays arrays₁ arrays₂ : ℕ → ℕ → UInt8} {event : SdEvent}
    {rest : List SdEvent} (h : Explains arrays [event] arrays₁) (h' : Explains arrays₁ rest arrays₂) :
    Explains arrays (event::rest) arrays₂ := by
  cases event with
  | flush id done card =>
    obtain ⟨hdone, rfl⟩ := h
    exact ⟨hdone, h'⟩
  | read id addr len bytes =>
    obtain ⟨hbytes, rfl⟩ := h
    exact ⟨hbytes, h'⟩
  | write id addr data writeCount =>
    obtain ⟨hle, rfl⟩ := h
    exact ⟨hle, h'⟩

theorem sdCalls_explained (hc : h.Coherent) (calls : List SdCall) :
    ∃ events h', sdCalls bus h calls = .ok (events, h') ∧ h'.Coherent ∧
      Explains h.arrays events h'.arrays := by
  induction calls generalizing h with
  | nil => exact ⟨[], h, rfl, hc, rfl⟩
  | cons c rest ih =>
    obtain ⟨event, h₁, hcall, hc₁, hstep⟩ : ∃ event h', sdCall bus h c = .ok (event, h') ∧
        h'.Coherent ∧ Explains h.arrays [event] h'.arrays := sdCall_explained hc c
    obtain ⟨events, h₂, hrest, hc₂, hrun⟩ := ih hc₁
    refine ⟨event::events, h₂, ?_, hc₂, explains_cons hstep hrun⟩
    rw [sdCalls, hcall]
    change (sdCalls bus h₁ rest >>= _) = _
    rw [hrest]
    rfl

end Runs

/-- The readers as they are mounted: the cache is marked as undefined. -/
def HwState.mounted (h : HwState) : HwState :=
  { h with hwDevices := fun id => { h.hwDevices id with
      sdCardReader := { (h.hwDevices id).sdCardReader with cacheIsValid := false } } }

/-- Whatever transfers fail, every run of calls after the mount ends without a
failed assertion, and is one of plain arrays that start as the cards: a read
gives their bytes, a write changes the bytes it counts, a flush that succeeds
leaves the card with all of them. -/
theorem sdCache_invisible (bus : ℕ → SdTransfer) (calls : List SdCall) (h : HwState) :
    ∃ events h', sdCalls bus h.mounted calls = .ok (events, h') ∧
      Explains (fun id => cardByte (h.hwDevices id).sdCardReader.sdCard) events h'.arrays := by
  have hc : h.mounted.Coherent := fun id hvalid => nomatch hvalid
  have hcards : h.mounted.arrays = fun id => cardByte (h.hwDevices id).sdCardReader.sdCard := by
    funext id
    exact logical_clean (fun hvalid => nomatch hvalid)
  obtain ⟨events, h', hrun, _, hexplains⟩ : ∃ events h', sdCalls bus h.mounted calls =
      .ok (events, h') ∧ h'.Coherent ∧ Explains h.mounted.arrays events h'.arrays :=
    sdCalls_explained hc calls
  exact ⟨events, h', hrun, hcards ▸ hexplains⟩

end ArduinoOS.Hardware
