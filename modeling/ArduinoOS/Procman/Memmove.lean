import ArduinoOS.Procman.Growth

/-!
# Moves within the memory of a process

A move goes through a buffer of 256 bytes, from the front when it goes to lower
addresses and from the back otherwise. Whatever the overlap, the destination
gets the bytes of the source as they were. The growth of the RAM is what other
addresses may see of it: its spare bytes can come to lie over the window of the
environment variables.
-/

set_option autoImplicit false

namespace ArduinoOS.Procman
open ArduinoOS.Faulting ArduinoOS.Kernel ArduinoOS.Minifs

/-! ### The function -/

section Source

variable {φ : Type} (F : Files φ) (process : ProcManProcess)

/-- The loop over the blocks; `place` tells where in the ranges the block lies
that is next after `i` bytes. -/
def memmoveBlocks (place : ℕ → ℕ → ℕ) (destAddr srcAddr : UInt16) (size : ℕ)
    (procData : ProcManProcessProcData) (i : ℕ) : ℕ → Run φ Fault (Bool × ProcManProcessProcData)
  | 0 => pure (true, procData)
  | left+1 =>
      if size ≤ i then pure (true, procData)
      else do
        let chunkSize := min (size-i) 256
        let bytes ← procManProcessMemoryReadBlock F process procData
          (srcAddr+UInt16.ofNat (place i chunkSize)) chunkSize
        match bytes with
        | none => pure (false, procData)
        | some bytes => do
            let r ← procManProcessMemoryWriteBlock F process procData
              (destAddr+UInt16.ofNat (place i chunkSize)) bytes
            if r.1 then memmoveBlocks place destAddr srcAddr size r.2 (i+chunkSize) left
            else pure (false, r.2)

def forwards (i _ : ℕ) : ℕ := i

def backwards (size i chunkSize : ℕ) : ℕ := size-chunkSize-i

def procManProcessMemmove (procData : ProcManProcessProcData) (destAddr srcAddr : UInt16)
    (size : ℕ) : Run φ Fault (Bool × ProcManProcessProcData) :=
  if destAddr < srcAddr then memmoveBlocks F process forwards destAddr srcAddr size procData 0 size
  else memmoveBlocks F process (backwards size) destAddr srcAddr size procData 0 size

end Source

theorem addr_nat {addr : UInt16} {i : ℕ} (h : addr.toNat+i < 65536) :
    (addr+UInt16.ofNat i).toNat = addr.toNat+i := by
  rw [UInt16.toNat_add, UInt16.toNat_ofNat']
  omega

/-! ### Writes that follow each other -/

section Patches

variable {m m₁ m₂ : MemoryImage} {offset : ℕ} {data more : List UInt8}

theorem patched_nil (m : MemoryImage) (offset : ℕ) : Patched m m offset [] :=
  ⟨rfl, rfl, Nat.le_refl _, fun _ hk => absurd hk (Nat.not_lt_zero _), fun _ _ _ => rfl⟩

theorem patched_kept (h : Patched m m₁ offset data)
    (hin : ∀ k < data.length, offset+k < m₁.file.length)
    (h' : Patched m₁ m₂ (offset+data.length) more) (k : ℕ) (hk : k < data.length) :
    m₂.file[offset+k]? = data[k]? := by
  rw [h'.outside (offset+k) (hin k hk) (Or.inl (by omega)), h.inside k hk]

theorem patched_length (h : Patched m m₁ offset data) : m.file.length ≤ m₁.file.length := by
  have hram := h.ram
  rw [m.file_length, m₁.file_length, h.env]
  omega

/-- A write behind the last one. -/
theorem patched_append (h : Patched m m₁ offset data)
    (hin : ∀ k < data.length, offset+k < m₁.file.length)
    (h' : Patched m₁ m₂ (offset+data.length) more) : Patched m m₂ offset (data++more) := by
  refine ⟨h'.prog.trans h.prog, h'.env.trans h.env, Nat.le_trans h.ram h'.ram, ?_, ?_⟩
  · intro k hk
    rw [List.length_append] at hk
    by_cases hfirst : k < data.length
    · rw [patched_kept h hin h' k hfirst, List.getElem?_append_left hfirst]
    · have hlast := h'.inside (k-data.length) (by omega)
      rw [show offset+data.length+(k-data.length) = offset+k by omega] at hlast
      rw [hlast, List.getElem?_append_right (Nat.not_lt.mp hfirst)]
  · intro k hk hout
    rw [List.length_append] at hout
    have hlen := patched_length h
    rw [h'.outside k (by omega) (by omega), h.outside k hk (by omega)]

/-- A write in front of the last one. -/
theorem patched_prepend (h : Patched m m₁ (offset+more.length) data)
    (hin : ∀ k < data.length, offset+more.length+k < m₁.file.length)
    (h' : Patched m₁ m₂ offset more) : Patched m m₂ offset (more++data) := by
  refine ⟨h'.prog.trans h.prog, h'.env.trans h.env, Nat.le_trans h.ram h'.ram, ?_, ?_⟩
  · intro k hk
    rw [List.length_append] at hk
    by_cases hfirst : k < more.length
    · rw [h'.inside k hfirst, List.getElem?_append_left hfirst]
    · have hlast := h.inside (k-more.length) (by omega)
      rw [show offset+more.length+(k-more.length) = offset+k by omega] at hlast
      have hlt := hin (k-more.length) (by omega)
      rw [h'.outside (offset+k) (by omega) (by omega), hlast,
        List.getElem?_append_right (Nat.not_lt.mp hfirst)]
  · intro k hk hout
    rw [List.length_append] at hout
    have hlen := patched_length h
    rw [h'.outside k (by omega) (by omega), h.outside k hk (by omega)]

end Patches

/-! ### The source -/

/-- The range lies in the program, in the RAM, or where the environment
variables are seen. -/
def OneRegion (m : MemoryImage) (addr len : ℕ) : Prop :=
  addr+len ≤ BytecodeMemoryRamAddr ∨
    (BytecodeMemoryRamAddr ≤ addr ∧ addr-BytecodeMemoryRamAddr+len ≤ m.ram.length) ∨
    (ProcManEnvVarsVirtualOffset ≤ addr ∧ m.ram.length ≤ addr-BytecodeMemoryRamAddr)

/-- The range has these bytes. -/
def HasBytes (m : MemoryImage) (addr : ℕ) (bytes : List UInt8) : Prop :=
  ∀ k < bytes.length, m.byte (addr+k) = bytes[k]?

section Range

variable {m m₁ : MemoryImage} {addr index : ℕ} {bytes data : List UInt8}

theorem hasBytes_prog (h : HasBytes m addr bytes) (hlow : addr+bytes.length ≤ BytecodeMemoryRamAddr)
    (hpos : 0 < bytes.length) :
    addr+bytes.length < BytecodeMemoryRamAddr ∧ ∀ k < bytes.length, m.prog[addr+k]? = bytes[k]? := by
  have hend : addr+bytes.length < BytecodeMemoryRamAddr := by
    by_contra hnot
    have hlast := h (bytes.length-1) (by omega)
    rw [MemoryImage.byte_between (by omega), List.getElem?_eq_getElem (by omega)] at hlast
    cases hlast
  refine ⟨hend, fun k hk => ?_⟩
  rw [← h k hk, MemoryImage.byte_prog (by omega)]

theorem hasBytes_ram (h : HasBytes m addr bytes) (hlow : BytecodeMemoryRamAddr ≤ addr)
    (hin : addr-BytecodeMemoryRamAddr+bytes.length ≤ m.ram.length) (k : ℕ) (hk : k < bytes.length) :
    m.file[m.env.length+(addr-BytecodeMemoryRamAddr)+k]? = bytes[k]? := by
  have hindex : m.env.length+(addr+k-BytecodeMemoryRamAddr) =
      m.env.length+(addr-BytecodeMemoryRamAddr)+k := by omega
  rw [← h k hk, MemoryImage.byte_ram (by omega), MemoryImage.offsetOf_ram (by omega),
    Option.bind_some, hindex]

theorem hasBytes_env (h : HasBytes m addr bytes) (hlow : ProcManEnvVarsVirtualOffset ≤ addr)
    (hout : m.ram.length ≤ addr-BytecodeMemoryRamAddr) (k : ℕ) (hk : k < bytes.length) :
    addr-ProcManEnvVarsVirtualOffset+k < m.env.length ∧
      m.file[addr-ProcManEnvVarsVirtualOffset+k]? = bytes[k]? := by
  have hbase : BytecodeMemoryRamAddr = 32768 := rfl
  have hwindow : MemoryImage.envIndex = 31744 := rfl
  have hvirtual : ProcManEnvVarsVirtualOffset = 64512 := rfl
  have hbyte := h k hk
  have hindex : addr+k-BytecodeMemoryRamAddr-MemoryImage.envIndex =
      addr-ProcManEnvVarsVirtualOffset+k := by omega
  rw [MemoryImage.byte_ram (by omega)] at hbyte
  by_cases hvisible : addr+k-BytecodeMemoryRamAddr-MemoryImage.envIndex < m.env.length
  · rw [MemoryImage.offsetOf_env (by omega) (by omega) hvisible, Option.bind_some, hindex] at hbyte
    exact ⟨hindex ▸ hvisible, hbyte⟩
  · rw [MemoryImage.offsetOf, if_neg (by omega), if_neg (by omega), Option.bind_none,
      List.getElem?_eq_getElem hk] at hbyte
    cases hbyte

/-- A block of the source reads as it did before the move, as long as the bytes
moved so far lie apart from it. -/
theorem source_block (offset len : ℕ) (h : HasBytes m addr bytes) (hregion : OneRegion m addr bytes.length)
    (hp : Patched m m₁ (m.env.length+index) data) (hlen : 0 < len)
    (hoffset : offset+len ≤ bytes.length)
    (hapart : BytecodeMemoryRamAddr ≤ addr → addr-BytecodeMemoryRamAddr+offset+len ≤ index ∨
      index+data.length ≤ addr-BytecodeMemoryRamAddr+offset)
    (hshown : ProcManEnvVarsVirtualOffset ≤ addr → m.ram.length ≤ addr-BytecodeMemoryRamAddr →
      m₁.ram.length ≤ addr-BytecodeMemoryRamAddr+offset) :
    m₁.block (addr+offset) len = some ((bytes.drop offset).take len) := by
  have hbase : BytecodeMemoryRamAddr = 32768 := rfl
  have hwindow : MemoryImage.envIndex = 31744 := rfl
  have hvirtual : ProcManEnvVarsVirtualOffset = 64512 := rfl
  have hcut : ((bytes.drop offset).take len).length = len := by
    rw [List.length_take, List.length_drop]
    omega
  have hget : ∀ k < len, ((bytes.drop offset).take len)[k]? = bytes[offset+k]? := by
    intro k hk
    rw [List.getElem?_take, if_pos hk, List.getElem?_drop]
  have hfile := m.file_length
  have henv := hp.env
  have hram := hp.ram
  rcases hregion with hprog | ⟨hlow, hin⟩ | ⟨hlow, hout⟩
  · obtain ⟨hend, hbytes⟩ := hasBytes_prog h hprog (by omega)
    rw [MemoryImage.block_prog (by omega), hp.prog]
    refine sliceOf_some.mpr ⟨hcut, fun k hk => ?_⟩
    rw [hget k hk, ← hbytes (offset+k) (by omega), Nat.add_assoc]
  · have hplace : m₁.offsetOf (addr+offset-BytecodeMemoryRamAddr) =
        some (m.env.length+(addr-BytecodeMemoryRamAddr)+offset) := by
      rw [MemoryImage.offsetOf_ram (by omega), henv, Nat.add_assoc, Nat.sub_add_comm hlow]
    rw [MemoryImage.block_at (by omega) hplace]
    refine sliceOf_some.mpr ⟨hcut, fun k hk => ?_⟩
    have hside := hapart hlow
    rw [hget k hk, ← hasBytes_ram h hlow hin (offset+k) (by omega), ← Nat.add_assoc]
    exact hp.outside _ (by omega) (by omega)
  · have hside := hshown hlow hout
    obtain ⟨hvisible, _⟩ := hasBytes_env h hlow hout (offset+len-1) (by omega)
    have hplace : m₁.offsetOf (addr+offset-BytecodeMemoryRamAddr) =
        some (addr-ProcManEnvVarsVirtualOffset+offset) := by
      rw [MemoryImage.offsetOf_env (by omega) (by omega) (by omega),
        show addr+offset-BytecodeMemoryRamAddr-MemoryImage.envIndex =
          addr-ProcManEnvVarsVirtualOffset+offset by omega]
    rw [MemoryImage.block_at (by omega) hplace]
    refine sliceOf_some.mpr ⟨hcut, fun k hk => ?_⟩
    rw [hget k hk, ← (hasBytes_env h hlow hout (offset+k) (by omega)).2, ← Nat.add_assoc]
    exact hp.outside _ (by omega) (by omega)

end Range

/-! ### The loop -/

/-- Where the blocks end, in the order in which they are written. -/
def blockEnds (place : ℕ → ℕ → ℕ) (size i : ℕ) : ℕ → List ℕ
  | 0 => []
  | left+1 =>
      if size ≤ i then []
      else (place i (min (size-i) 256)+min (size-i) 256)::
        blockEnds place size (i+min (size-i) 256) left

theorem blockEnds_le {place : ℕ → ℕ → ℕ} {size : ℕ}
    (hplace : ∀ i chunkSize, i+chunkSize ≤ size → place i chunkSize+chunkSize ≤ size)
    (i left : ℕ) : ∀ e ∈ blockEnds place size i left, e ≤ size := by
  induction left generalizing i with
  | zero =>
    intro e he
    cases he
  | succ left ih =>
    intro e he
    rw [blockEnds] at he
    split at he
    case isTrue => cases he
    case isFalse =>
      rcases List.mem_cons.mp he with rfl | hrest
      · exact hplace i _ (by omega)
      · exact ih _ e hrest

/-- The length of the RAM after a move. -/
def movedLength (grants : ℕ → Bool) (m : MemoryImage) (destAddr srcAddr : UInt16) (size : ℕ) : ℕ :=
  ((blockEnds (if destAddr < srcAddr then forwards else backwards size) size 0 size).map
    (destAddr.toNat-BytecodeMemoryRamAddr+·)).foldl (lenAfter grants m.env.length) m.ram.length

/-- The volume grants the sizes that writes in this part of the RAM may need. -/
def GrantsFor (grants : ℕ → Bool) (m : MemoryImage) (index size : ℕ) : Prop :=
  ∀ e ≤ size, m.ram.length ≤ index+e → grants (m.env.length+(index+e)) = true

theorem grantsFor_patched {grants : ℕ → Bool} {m m₁ : MemoryImage} {offset : ℕ} {data : List UInt8}
    (hp : Patched m m₁ offset data) {index size size' : ℕ} (h : GrantsFor grants m index size)
    (hle : size' ≤ size) : GrantsFor grants m₁ index size' := by
  intro e he hbeyond
  rw [hp.env]
  exact h e (Nat.le_trans he hle) (Nat.le_trans hp.ram hbeyond)

section Runs

variable {φ : Type} {F : Files φ} {Inv : φ → Prop} {view : φ → FsView} {largest : ℕ}
  {grants : ℕ → Bool} (hl : FilesLaw F Inv view largest) (hr : ReliableReads F Inv view)
  (hw : ReliableWrites F Inv view) {process : ProcManProcess} {paths : ProcessPaths}
  (hg : Growable F Inv view largest paths.ram grants) (hsmall : largest ≤ 32768)
  {procData : ProcManProcessProcData} {m : MemoryImage} {s : φ} {destAddr srcAddr : UInt16}
  {size : ℕ}

include hl hr hw hg hsmall

/-- One round of the loop. -/
theorem memmoveBlocks_step (place : ℕ → ℕ → ℕ) (left i : ℕ)
    (h : MemoryAt Inv view process paths procData s m) {offset len : ℕ} {data : List UInt8}
    (hi : i < size) (hlen : min (size-i) 256 = len) (hplace : place i len = offset)
    (hdata : data.length = len) (hsource : srcAddr.toNat+offset < 65536)
    (hread : m.block (srcAddr.toNat+offset) len = some data)
    (hin : BytecodeMemoryRamAddr ≤ destAddr.toNat)
    (hend : destAddr.toNat+offset+len ≤ ProcManEnvVarsVirtualOffset)
    (hroom : m.env.length+MemoryImage.envIndex+15 ≤ largest)
    (hgrant : GrantsFor grants m (destAddr.toNat-BytecodeMemoryRamAddr) (offset+len)) :
    ∃ procData' s' m', memmoveBlocks F process place destAddr srcAddr size procData i (left+1) s =
        memmoveBlocks F process place destAddr srcAddr size procData' (i+len) left s' ∧
      MemoryAt Inv view process paths procData' s' m' ∧ Beside (view s) (view s') paths ∧
      Patched m m' (m.env.length+(destAddr.toNat-BytecodeMemoryRamAddr+offset)) data ∧
      m'.ram.length = lenAfter grants m.env.length m.ram.length
        (destAddr.toNat-BytecodeMemoryRamAddr+(offset+len)) ∧
      procData'.regs = procData.regs := by
  have hbase : BytecodeMemoryRamAddr = 32768 := rfl
  have hwindow : MemoryImage.envIndex = 31744 := rfl
  have hvirtual : ProcManEnvVarsVirtualOffset = 64512 := rfl
  have hfrom : (srcAddr+UInt16.ofNat offset).toNat = srcAddr.toNat+offset := by
    rw [UInt16.toNat_add, UInt16.toNat_ofNat']
    omega
  have hto : (destAddr+UInt16.ofNat offset).toNat = destAddr.toNat+offset := by
    rw [UInt16.toNat_add, UInt16.toNat_ofNat']
    omega
  obtain ⟨s₁, hrun, hi₁, hv⟩ := readBlock_run hl hr h.inv h.memory (srcAddr+UInt16.ofNat offset) len
  rw [hfrom, hread] at hrun
  have h₁ : MemoryAt Inv view process paths procData s₁ m :=
    ⟨hi₁, hv.symm ▸ h.memory, hv.symm ▸ h.owned⟩
  have hindex : destAddr.toNat+offset-BytecodeMemoryRamAddr =
      destAddr.toNat-BytecodeMemoryRamAddr+offset := by omega
  obtain ⟨procData', s', m', hwrite, h', hbeside, hpatched, hram, hregs⟩ :=
    ramWrite_run hl (destAddr+UInt16.ofNat offset) data hw hg hsmall h₁
      (by rw [hto]; omega) (by rw [hto]; omega) (by rw [hto, hdata]; omega)
      (fun hbeyond => by
        rw [hto, hdata, hindex, Nat.add_assoc] at hbeyond
        rw [hto, hdata, hindex, Nat.add_assoc, Nat.add_assoc]
        exact hgrant (offset+len) (Nat.le_refl _) hbeyond)
  rw [hto, hindex] at hpatched hram
  rw [hdata, Nat.add_assoc] at hram
  refine ⟨procData', s', m', ?_, h', hv ▸ hbeside, hpatched, hram, hregs⟩
  rw [memmoveBlocks, if_neg (Nat.not_le.mpr hi), hlen, hplace, bind_of_ok hrun]
  dsimp only
  rw [bind_of_ok hwrite]
  rfl

/-- From the front: the bytes moved so far are the first ones. -/
theorem forwards_run {bytes : List UInt8} (hbytes : HasBytes m srcAddr.toNat bytes)
    (hregion : OneRegion m srcAddr.toNat bytes.length) (hsource : srcAddr.toNat+bytes.length ≤ 65536)
    (hin : BytecodeMemoryRamAddr ≤ destAddr.toNat)
    (hend : destAddr.toNat+bytes.length ≤ ProcManEnvVarsVirtualOffset)
    (hroom : m.env.length+MemoryImage.envIndex+15 ≤ largest)
    (hgrant : GrantsFor grants m (destAddr.toNat-BytecodeMemoryRamAddr) bytes.length)
    (hbelow : destAddr.toNat < srcAddr.toNat) (left i : ℕ) (hleft : bytes.length ≤ i+left)
    (hi : i ≤ bytes.length) {procData₁ : ProcManProcessProcData} {s₁ : φ} {m₁ : MemoryImage}
    (h : MemoryAt Inv view process paths procData₁ s₁ m₁)
    (hp : Patched m m₁ (m.env.length+(destAddr.toNat-BytecodeMemoryRamAddr)) (bytes.take i))
    (hdone : i = 0 ∨ destAddr.toNat-BytecodeMemoryRamAddr+i ≤ m₁.ram.length)
    (hram : i = bytes.length ∨ (i = 0 ∧ m₁.ram.length = m.ram.length) ∨ (256 ≤ i ∧
      m₁.ram.length ≤ max m.ram.length (destAddr.toNat-BytecodeMemoryRamAddr+i+15))) :
    ∃ procData' s' m', memmoveBlocks F process forwards destAddr srcAddr bytes.length procData₁ i
        left s₁ = .ok ((true, procData'), s') ∧
      MemoryAt Inv view process paths procData' s' m' ∧ Beside (view s₁) (view s') paths ∧
      Patched m m' (m.env.length+(destAddr.toNat-BytecodeMemoryRamAddr)) bytes ∧
      m'.ram.length = ((blockEnds forwards bytes.length i left).map
        (destAddr.toNat-BytecodeMemoryRamAddr+·)).foldl (lenAfter grants m.env.length)
          m₁.ram.length ∧
      procData'.regs = procData₁.regs := by
  have hbase : BytecodeMemoryRamAddr = 32768 := rfl
  have hwindow : MemoryImage.envIndex = 31744 := rfl
  have hvirtual : ProcManEnvVarsVirtualOffset = 64512 := rfl
  induction left generalizing i procData₁ s₁ m₁ with
  | zero =>
    rw [List.take_of_length_le (by omega)] at hp
    exact ⟨procData₁, s₁, m₁, rfl, h, beside_refl _ _, hp, rfl, rfl⟩
  | succ left ih =>
    by_cases hfull : bytes.length ≤ i
    · rw [List.take_of_length_le hfull] at hp
      rw [memmoveBlocks, if_pos hfull, blockEnds, if_pos hfull]
      exact ⟨procData₁, s₁, m₁, rfl, h, beside_refl _ _, hp, rfl, rfl⟩
    · obtain ⟨len, hlen⟩ : ∃ len, min (bytes.length-i) 256 = len := ⟨_, rfl⟩
      have htake : (bytes.take i).length = i := by
        rw [List.length_take]
        omega
      have hcut : ((bytes.drop i).take len).length = len := by
        rw [List.length_take, List.length_drop]
        omega
      have hread := source_block i len hbytes hregion hp (by omega) (by omega)
         (fun _ => by omega) (fun hlow hout => by omega)
      obtain ⟨procData₂, s₂, m₂, hrun, h₂, hbeside, hpatched, hgrown, hregs⟩ :=
        memmoveBlocks_step hl hr hw hg hsmall forwards left i h (Nat.not_le.mp hfull) hlen
          (show forwards i len = i from rfl) hcut (by omega) hread hin (by omega)
          (by rw [hp.env]; exact hroom) (grantsFor_patched hp hgrant (by omega))
      rw [hp.env] at hpatched hgrown
      have hbounds := lenAfter_bounds grants m.env.length m₁.ram.length
        (destAddr.toNat-BytecodeMemoryRamAddr+(i+len))
      have hfile := m₁.file_length
      have henv := hp.env
      have hjoin : Patched m m₂ (m.env.length+(destAddr.toNat-BytecodeMemoryRamAddr))
          (bytes.take i++(bytes.drop i).take len) := by
        apply patched_append hp
        · intro k hk
          rw [htake] at hk
          omega
        · rw [htake, Nat.add_assoc]
          exact hpatched
      rw [← List.take_add] at hjoin
      obtain ⟨procData', s', m', hloop, h', hbeside', hpatched', hlength, hregs'⟩ :=
        ih (i+len) (by omega) (by omega) h₂ hjoin (Or.inr (by omega)) (by omega)
      refine ⟨procData', s', m', ?_, h', beside_trans hbeside hbeside', hpatched', ?_,
        hregs'.trans hregs⟩
      · rw [hrun]
        exact hloop
      · rw [blockEnds, if_neg hfull, hlen, List.map_cons, List.foldl_cons, hlength, hgrown]
        rfl

/-- From the back: the bytes moved so far are the last ones. -/
theorem backwards_run {bytes : List UInt8} (hbytes : HasBytes m srcAddr.toNat bytes)
    (hregion : OneRegion m srcAddr.toNat bytes.length) (hsource : srcAddr.toNat+bytes.length ≤ 65536)
    (hin : BytecodeMemoryRamAddr ≤ destAddr.toNat)
    (hend : destAddr.toNat+bytes.length ≤ ProcManEnvVarsVirtualOffset)
    (hroom : m.env.length+MemoryImage.envIndex+15 ≤ largest)
    (hgrant : GrantsFor grants m (destAddr.toNat-BytecodeMemoryRamAddr) bytes.length)
    (habove : srcAddr.toNat ≤ destAddr.toNat) (left i : ℕ) (hleft : bytes.length ≤ i+left)
    (hi : i ≤ bytes.length) {procData₁ : ProcManProcessProcData} {s₁ : φ} {m₁ : MemoryImage}
    (h : MemoryAt Inv view process paths procData₁ s₁ m₁)
    (hp : Patched m m₁
      (m.env.length+(destAddr.toNat-BytecodeMemoryRamAddr+(bytes.length-i)))
      (bytes.drop (bytes.length-i)))
    (hdone : i = 0 ∨ destAddr.toNat-BytecodeMemoryRamAddr+bytes.length ≤ m₁.ram.length) :
    ∃ procData' s' m', memmoveBlocks F process (backwards bytes.length) destAddr srcAddr
        bytes.length procData₁ i left s₁ = .ok ((true, procData'), s') ∧
      MemoryAt Inv view process paths procData' s' m' ∧ Beside (view s₁) (view s') paths ∧
      Patched m m' (m.env.length+(destAddr.toNat-BytecodeMemoryRamAddr)) bytes ∧
      m'.ram.length = ((blockEnds (backwards bytes.length) bytes.length i left).map
        (destAddr.toNat-BytecodeMemoryRamAddr+·)).foldl (lenAfter grants m.env.length)
          m₁.ram.length ∧
      procData'.regs = procData₁.regs := by
  have hbase : BytecodeMemoryRamAddr = 32768 := rfl
  have hwindow : MemoryImage.envIndex = 31744 := rfl
  have hvirtual : ProcManEnvVarsVirtualOffset = 64512 := rfl
  have hwhole : bytes.length ≤ i → Patched m m₁
      (m.env.length+(destAddr.toNat-BytecodeMemoryRamAddr)) bytes := by
    intro hfull
    rw [show bytes.length-i = 0 by omega, List.drop_zero, Nat.add_zero] at hp
    exact hp
  induction left generalizing i procData₁ s₁ m₁ with
  | zero => exact ⟨procData₁, s₁, m₁, rfl, h, beside_refl _ _, hwhole (by omega), rfl, rfl⟩
  | succ left ih =>
    by_cases hfull : bytes.length ≤ i
    · rw [memmoveBlocks, if_pos hfull, blockEnds, if_pos hfull]
      exact ⟨procData₁, s₁, m₁, rfl, h, beside_refl _ _, hwhole hfull, rfl, rfl⟩
    · obtain ⟨len, hlen⟩ : ∃ len, min (bytes.length-i) 256 = len := ⟨_, rfl⟩
      have hrest : (bytes.drop (bytes.length-i)).length = i := by
        rw [List.length_drop]
        omega
      have hcut : ((bytes.drop (bytes.length-len-i)).take len).length = len := by
        rw [List.length_take, List.length_drop]
        omega
      have hread := source_block (bytes.length-len-i) len hbytes hregion hp (by omega) (by omega)
        (fun _ => by omega) (fun hlow hout => by omega)
      obtain ⟨procData₂, s₂, m₂, hrun, h₂, hbeside, hpatched, hgrown, hregs⟩ :=
        memmoveBlocks_step hl hr hw hg hsmall (backwards bytes.length) left i h
          (Nat.not_le.mp hfull) hlen
          (show backwards bytes.length i len = bytes.length-len-i from rfl) hcut (by omega) hread
          hin (by omega) (by rw [hp.env]; exact hroom)
          (grantsFor_patched hp hgrant (by omega))
      rw [hp.env] at hpatched hgrown
      have hbounds := lenAfter_bounds grants m.env.length m₁.ram.length
        (destAddr.toNat-BytecodeMemoryRamAddr+(bytes.length-len-i+len))
      have hfile := m₁.file_length
      have henv := hp.env
      have hnext : bytes.length-(i+len) = bytes.length-len-i := by omega
      have hjoin : Patched m m₂
          (m.env.length+(destAddr.toNat-BytecodeMemoryRamAddr+(bytes.length-(i+len))))
          (bytes.drop (bytes.length-(i+len))) := by
        have hsplit : (bytes.drop (bytes.length-len-i)).take len++
            bytes.drop (bytes.length-i) = bytes.drop (bytes.length-len-i) := by
          rw [show bytes.length-i = bytes.length-len-i+len by omega, ← List.drop_drop,
            List.take_append_drop]
        rw [hnext, ← hsplit]
        apply patched_prepend
        · rw [hcut, show m.env.length+(destAddr.toNat-BytecodeMemoryRamAddr+(bytes.length-len-i))+
            len = m.env.length+(destAddr.toNat-BytecodeMemoryRamAddr+(bytes.length-i)) by omega]
          exact hp
        · intro k hk
          rw [hrest] at hk
          rw [hcut]
          omega
        · exact hpatched
      obtain ⟨procData', s', m', hloop, h', hbeside', hpatched', hlength, hregs'⟩ :=
        ih (i+len) (by omega) (by omega) h₂ hjoin (Or.inr (by omega)) (fun hall => by
          rw [show bytes.length-(i+len) = 0 by omega, List.drop_zero, Nat.add_zero] at hjoin
          exact hjoin)
      refine ⟨procData', s', m', ?_, h', beside_trans hbeside hbeside', hpatched', ?_,
        hregs'.trans hregs⟩
      · rw [hrun]
        exact hloop
      · rw [blockEnds, if_neg hfull, hlen, List.map_cons, List.foldl_cons, hlength, hgrown]
        rfl

/-- The whole move. -/
theorem memmove_run {bytes : List UInt8} (h : MemoryAt Inv view process paths procData s m)
    (hbytes : HasBytes m srcAddr.toNat bytes) (hregion : OneRegion m srcAddr.toNat bytes.length)
    (hsource : srcAddr.toNat+bytes.length ≤ 65536)
    (hin : BytecodeMemoryRamAddr ≤ destAddr.toNat)
    (hend : destAddr.toNat+bytes.length ≤ ProcManEnvVarsVirtualOffset)
    (hroom : m.env.length+MemoryImage.envIndex+15 ≤ largest)
    (hgrant : GrantsFor grants m (destAddr.toNat-BytecodeMemoryRamAddr) bytes.length) :
    ∃ procData' s' m', procManProcessMemmove F process procData destAddr srcAddr bytes.length s =
        .ok ((true, procData'), s') ∧ MemoryAt Inv view process paths procData' s' m' ∧
      Beside (view s) (view s') paths ∧
      Patched m m' (m.env.length+(destAddr.toNat-BytecodeMemoryRamAddr)) bytes ∧
      m'.ram.length = movedLength grants m destAddr srcAddr bytes.length ∧
      procData'.regs = procData.regs := by
  by_cases hbelow : destAddr < srcAddr
  · have hlt : destAddr.toNat < srcAddr.toNat := UInt16.lt_iff_toNat_lt.mp hbelow
    rw [procManProcessMemmove, if_pos hbelow, movedLength, if_pos hbelow]
    exact forwards_run hl hr hw hg hsmall hbytes hregion hsource hin hend hroom hgrant hlt
      bytes.length 0 (by omega) (Nat.zero_le _) h (patched_nil m _) (Or.inl rfl)
      (Or.inr (Or.inl ⟨rfl, rfl⟩))
  · have hle : srcAddr.toNat ≤ destAddr.toNat :=
      Nat.not_lt.mp (fun hlt => hbelow (UInt16.lt_iff_toNat_lt.mpr hlt))
    have hnone : bytes.drop (bytes.length-0) = [] := by
      rw [Nat.sub_zero, List.drop_length]
    rw [procManProcessMemmove, if_neg hbelow, movedLength, if_neg hbelow]
    exact backwards_run hl hr hw hg hsmall hbytes hregion hsource hin hend hroom hgrant hle
      bytes.length 0 (by omega) (Nat.zero_le _) h (hnone ▸ patched_nil m _) (Or.inl rfl)

end Runs

/-! ### What the process sees -/

section Bytes

variable {m m' : MemoryImage} {index : ℕ} {data : List UInt8}

theorem patched_arrived (h : Patched m m' (m.env.length+index) data) (k : ℕ)
    (hk : k < data.length) : m'.byte (BytecodeMemoryRamAddr+index+k) = data[k]? := by
  have hinside := h.inside k hk
  rw [List.getElem?_eq_getElem hk] at hinside
  have hlt := (List.getElem?_eq_some_iff.mp hinside).1
  have hfile := m'.file_length
  have henv := h.env
  have hindex : BytecodeMemoryRamAddr+index+k-BytecodeMemoryRamAddr = index+k := by omega
  rw [MemoryImage.byte_ram (by omega), hindex, MemoryImage.offsetOf_ram (by omega),
    Option.bind_some, henv, ← Nat.add_assoc]
  exact h.inside k hk

/-- Other bytes stay where the RAM has not grown over them. -/
theorem patched_others (h : Patched m m' (m.env.length+index) data)
    (hshown : ∀ o < m.env.length, m.ram.length ≤ MemoryImage.envIndex+o →
      m'.ram.length ≤ MemoryImage.envIndex+o) {a : ℕ} {b : UInt8}
    (hout : a < BytecodeMemoryRamAddr+index ∨ BytecodeMemoryRamAddr+index+data.length ≤ a)
    (hb : m.byte a = some b) : m'.byte a = some b := by
  have hfile := m.file_length
  have hram := h.ram
  by_cases hprog : a+1 < BytecodeMemoryRamAddr
  · rw [MemoryImage.byte_prog hprog, h.prog, ← MemoryImage.byte_prog hprog, hb]
  by_cases hbetween : a+1 = BytecodeMemoryRamAddr
  · rw [MemoryImage.byte_between hbetween] at hb
    cases hb
  rw [MemoryImage.byte_ram (by omega)] at hb ⊢
  obtain ⟨offset, ho, hget⟩ := Option.bind_eq_some_iff.mp hb
  rcases MemoryImage.offsetOf_cases ho with ⟨hin, hx⟩ | ⟨hbeyond, hlow, hhigh, hx⟩
  · rw [MemoryImage.offsetOf_ram (Nat.lt_of_lt_of_le hin hram), Option.bind_some, h.env, ← hx,
      h.outside offset (by omega) (by omega), hget]
  · have hleft := hshown (a-BytecodeMemoryRamAddr-MemoryImage.envIndex) hhigh (by omega)
    rw [MemoryImage.offsetOf_env (by omega) hlow (by rw [h.env]; exact hhigh), Option.bind_some,
      ← hx, h.outside offset (by omega) (by omega), hget]

end Bytes

section Seen

variable {φ : Type} {F : Files φ} {Inv : φ → Prop} {view : φ → FsView} {largest : ℕ}
  {grants : ℕ → Bool} {process : ProcManProcess} {paths : ProcessPaths}
  {procData : ProcManProcessProcData} {m : MemoryImage} {s : φ}

/-- The growth leaves the environment variables that can be seen uncovered. -/
def Uncovered (m : MemoryImage) (len : ℕ) : Prop :=
  ∀ o < m.env.length, m.ram.length ≤ MemoryImage.envIndex+o → len ≤ MemoryImage.envIndex+o

end Seen

/-! ### The shell -/

theorem shell_memoryAt (prog : List UInt8) :
    MemoryAt FsView.Bounded id shellProcess shellPaths shellData (shellView prog)
      (shellImage prog) := by
  refine ⟨shell_bounded prog, shell_memory prog, by decide, ?_⟩
  intro i e he hpath
  simp only [id, shellView] at he
  split_ifs at he with h₁ h₂ h₃
  · rw [← Option.some.inj he] at hpath
    exact absurd hpath (by decide)
  · rw [← Option.some.inj he] at hpath
    exact absurd hpath (by decide)
  · exact h₃

theorem shell_ram_byte (prog : List UInt8) (k : ℕ) (hk : k < 4) :
    (shellImage prog).byte (BytecodeMemoryRamAddr+k) = [1, 2, 3, 4][k]? := by
  rw [MemoryImage.byte_ram (Nat.le_add_right _ _), Nat.add_sub_cancel_left,
    MemoryImage.offsetOf_ram hk, Option.bind_some, MemoryImage.file_ram]
  rfl

/-- The RAM file after the growth for one byte right below the window. -/
def shellGrown : List UInt8 := [65, 0, 1, 2, 3, 4]++List.replicate 31755 0

/-- The shell with these registers and descriptors. -/
def shellWith (regs : Fin 8 → UInt16) (fds : Fin 8 → UInt8) : ProcManProcessProcData :=
  { shellData with regs := regs, fds := fds }

def shellGrownData (regs : Fin 8 → UInt16) (fds : Fin 8 → UInt8) : ProcManProcessProcData :=
  { shellWith regs fds with ramFd := 63, ramLen := 31759 }

/-- The files after the byte 47 has been written there. -/
def shellGrownView (v : FsView) : FsView :=
  (((v.setFd 3 none).setFile shellPaths.ram (some shellGrown)).setFd 63
    (some ⟨shellPaths.ram, KernelFsFdModeRW, 1⟩)).setFile shellPaths.ram
      (some (patch shellGrown 31745 [47]))

/-- The shell's RAM is in the view, and the last descriptor is free. -/
structure ShellRam (v : FsView) : Prop where
  fd : v.fd 3 = some ⟨shellPaths.ram, KernelFsFdModeRW, 1⟩
  file : v.file shellPaths.ram = some [65, 0, 1, 2, 3, 4]
  closed : (v.setFd 3 none).isOpen shellPaths.ram = false
  free : (v.setFd 3 none).freeFd = 63

theorem shellGrown_length : shellGrown.length = 31761 := by
  rw [shellGrown, List.length_append, List.length_replicate]
  rfl

section Grows

variable {v : FsView} (hv : ShellRam v) (regs : Fin 8 → UInt16) (fds : Fin 8 → UInt8)

include hv

theorem shell_resized : procManProcessMemoryResize viewFiles shellPaths.ram 31744 31746
      procManExtras (v.setFd 3 none) =
    .ok (some 31759, (v.setFd 3 none).setFile shellPaths.ram (some shellGrown)) := by
  have hfile : (v.setFd 3 none).file shellPaths.ram = some [65, 0, 1, 2, 3, 4] := hv.file
  have hsize : u16 (31746+16-1) = 31761 := rfl
  have hcalled : (v.setFd 3 none).resize shellPaths.ram 31761 =
      (true, (v.setFd 3 none).setFile shellPaths.ram (some shellGrown)) := by
    rw [FsView.resize, if_neg (by rw [hv.closed]; exact Bool.false_ne_true), hfile]
    rfl
  have hresize : viewFiles.kernelFsFileResize shellPaths.ram (u16 (31746+16-1))
      (v.setFd 3 none) =
      .ok (true, (v.setFd 3 none).setFile shellPaths.ram (some shellGrown)) := by
    rw [hsize]
    exact congrArg Except.ok hcalled
  rw [procManExtras, procManProcessMemoryResize, bind_of_ok hresize, if_pos rfl]
  rfl

theorem shell_reopened : procManProcessMemoryReopen viewFiles shellProcess (shellWith regs fds)
      shellPaths.ram 31743 [47] 31759
      ((v.setFd 3 none).setFile shellPaths.ram (some shellGrown)) =
    .ok ((true, shellGrownData regs fds), shellGrownView v) := by
  obtain ⟨grown, hgrown⟩ : ∃ grown, ((v.setFd 3 none).setFile shellPaths.ram
      (some shellGrown)).setFd 63 (some ⟨shellPaths.ram, KernelFsFdModeRW, 1⟩) = grown := ⟨_, rfl⟩
  have hfree : ((v.setFd 3 none).setFile shellPaths.ram (some shellGrown)).freeFd = 63 := hv.free
  have hcalled : ((v.setFd 3 none).setFile shellPaths.ram (some shellGrown)).openFile
      shellPaths.ram KernelFsFdModeRW = (63, grown) := by
    have hclosed : ((v.setFd 3 none).setFile shellPaths.ram (some shellGrown)).isOpen
        shellPaths.ram = false := hv.closed
    rw [FsView.openFile, hfree, if_neg (by rw [hclosed]; simp), hgrown]
  have hopen : viewFiles.kernelFsFileOpen shellPaths.ram KernelFsFdModeRW
      ((v.setFd 3 none).setFile shellPaths.ram (some shellGrown)) = .ok (63, grown) :=
    congrArg Except.ok hcalled
  have hcontent : grown.content 63 KernelFsFdModeWO = some (shellPaths.ram, shellGrown) := by
    rw [← hgrown]
    rfl
  have hwrite : writeFully viewFiles 63 31745 [47] grown =
      .ok (true, grown.setFile shellPaths.ram (some (patch shellGrown 31745 [47]))) := by
    have hput : grown.writeOffset 63 31745 [47] =
        (1, grown.setFile shellPaths.ram (some (patch shellGrown 31745 [47]))) := by
      rw [FsView.writeOffset, hcontent]
      dsimp only
      rw [shellGrown_length]
      rfl
    rw [writeFully, bind_of_ok (congrArg Except.ok hput)]
    rfl
  have henv : (shellWith regs fds).envVarDataLen.toNat = 2 := rfl
  rw [procManProcessMemoryReopen, bind_of_ok hopen, if_neg (by decide), henv, bind_of_ok hwrite,
    ← hgrown]
  rfl

theorem shell_grows :
    procManProcessMemoryWriteBlock viewFiles shellProcess (shellWith regs fds) 64511 [47] v =
      .ok ((true, shellGrownData regs fds), shellGrownView v) := by
  have haddr : (64511 : UInt16).toNat = 64511 := rfl
  have hindex : 64511-BytecodeMemoryRamAddr = 31743 := rfl
  have hram : (shellWith regs fds).ramLen.toNat = 4 := rfl
  have hbase : BytecodeMemoryRamAddr = 32768 := rfl
  have hwindow : ProcManEnvVarsVirtualOffset = 64512 := rfl
  have hnumber : (shellWith regs fds).ramFd.toNat = 3 := rfl
  have hpath : viewFiles.kernelFsGetFilePath 3 v = .ok (some shellPaths.ram, v) := by
    change Except.ok ((v.fd 3).map OpenFile.path, v) = _
    rw [hv.fd]
    rfl
  have hcalled : v.close 3 = (0, v.setFd 3 none) := by
    rw [FsView.close, hv.fd]
    rfl
  have hclose : viewFiles.kernelFsFileClose 3 v = .ok (0, v.setFd 3 none) :=
    congrArg Except.ok hcalled
  have hmin : u16 (31743+[(47 : UInt8)].length) = 31744 := rfl
  have henv : (shellWith regs fds).envVarDataLen.toNat = 2 := rfl
  have htotal : u16 (2+31744) = 31746 := rfl
  rw [procManProcessMemoryWriteBlock, haddr, hindex, hram, if_neg (by omega),
    if_neg (by omega), if_neg (by simp), if_neg (by omega), procManProcessMemoryGrow, hnumber,
    bind_of_ok hpath]
  dsimp only
  rw [bind_of_ok hclose, hmin, henv, htotal, bind_of_ok (shell_resized hv)]
  exact shell_reopened hv regs fds

omit hv in
theorem shell_spare_byte : (patch shellGrown 31745 [47])[31746]? = some 0 := by
  rw [(written_patch shellGrown 31745 [47]).outside 31746 (Or.inr (by decide)), shellGrown,
    List.getElem?_append_right (by decide), List.getElem?_replicate, if_pos (by decide)]

omit hv in
/-- A spare byte has come to lie over the first environment variable. -/
theorem shell_covered : ByteAt viewFiles shellProcess (shellGrownData regs fds)
    (shellGrownView v) 64512 0 := by
  have hcontent : (shellGrownView v).content 63 KernelFsFdModeRO =
      some (shellPaths.ram, patch shellGrown 31745 [47]) := rfl
  have hbytes : (shellGrownView v).readOffset 63 31746 1 = [0] := by
    rw [FsView.readOffset, hcontent]
    dsimp only
    obtain ⟨hlt, hzero⟩ := List.getElem?_eq_some_iff.mp shell_spare_byte
    rw [List.drop_eq_getElem_cons hlt, hzero]
    rfl
  have hanswer : viewFiles.kernelFsFileReadOffset 63 31746 1 (shellGrownView v) =
      .ok (([0], 1), shellGrownView v) := by
    change Except.ok ((_, List.length _), _) = _
    rw [hbytes]
    rfl
  have hread : procManProcessMemoryReadBlock viewFiles shellProcess (shellGrownData regs fds)
      64512 1 (shellGrownView v) = .ok (some [0], shellGrownView v) := by
    have haddr : (64512 : UInt16).toNat = 64512 := rfl
    have hindex : 64512-BytecodeMemoryRamAddr = 31744 := rfl
    have hram : (shellGrownData regs fds).ramLen.toNat = 31759 := rfl
    have henv : (shellGrownData regs fds).envVarDataLen.toNat = 2 := rfl
    have hsum : 31744+2 = 31746 := rfl
    have hbase : BytecodeMemoryRamAddr = 32768 := rfl
    have hfd : (shellGrownData regs fds).ramFd.toNat = 63 := rfl
    rw [procManProcessMemoryReadBlock, haddr, hindex, hram, henv, hsum, hfd, if_neg (by omega),
      if_pos (by omega), if_pos (by decide), readFully, bind_of_ok hanswer]
    rfl
  exact ⟨_, by rw [procManProcessMemoryReadByte, bind_of_ok hread]; rfl⟩

end Grows

theorem shell_shellRam (prog : List UInt8) : ShellRam (shellView prog) := ⟨rfl, rfl, rfl, rfl⟩

end ArduinoOS.Procman
